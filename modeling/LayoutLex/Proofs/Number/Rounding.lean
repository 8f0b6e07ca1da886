import LayoutLex.Number.Nearest
import LayoutLex.Number.Shortest
import Mathlib.Tactic.Linarith
import Mathlib.Tactic.Ring

/-!
# Rounding finds the place

Every place of the format is `t · 2^52 + m` with `m` steps of `2^t` units below `2^53` (`Grid`),
so the numbers next to it are one step away, but for the power of two below which steps are half as
long. A fraction that lies between the middles of a place and its neighbours is rounded to it.

Results:
* `unitsAt_grid`: the number at a place in steps, `m · 2^t` units.
* `roundHalfEven_eq`: what is rounded to a whole number.
* `placeOf_of_belongs`: what belongs to a place is rounded to it.
-/

namespace LayoutLex

open Binary64

/-! ## Places in steps -/

/-- The place `t · 2^52 + m` is that of `m` steps of `2^t` units. Up to `2^53` units all steps are
of one unit; further on there are at least `2^52` of them. -/
def Grid (t m : Nat) : Prop :=
  m ≤ 2 ^ 53 ∧ (t = 0 ∨ 2 ^ 52 ≤ m)

/-- Every place is one of less than `2^53` steps. -/
theorem exists_grid (place : Nat) : ∃ t m, place = t * 2 ^ 52 + m ∧ Grid t m ∧ m < 2 ^ 53 := by
  refine ⟨place / 2 ^ 52 - 1, place - (place / 2 ^ 52 - 1) * 2 ^ 52, ?_, ⟨?_, ?_⟩, ?_⟩
  · omega
  · omega
  · omega
  · omega

theorem unitsAt_grid {t m : Nat} (h : Grid t m) : unitsAt (t * 2 ^ 52 + m) = m * 2 ^ t := by
  obtain ⟨hle, hlow⟩ := h
  unfold unitsAt
  simp only [Nat.pow_eq]
  by_cases hm : m < 2 ^ 52
  · have ht : t = 0 := by omega
    subst ht
    rw [if_pos (by omega)]
    omega
  rw [if_neg (by omega)]
  by_cases htop : m = 2 ^ 53
  · subst htop
    rw [show (t * 2 ^ 52 + 2 ^ 53) / 2 ^ 52 - 1 = t + 1 by omega,
      show (t * 2 ^ 52 + 2 ^ 53) % 2 ^ 52 = 0 by omega]
    ring
  · rw [show (t * 2 ^ 52 + m) / 2 ^ 52 - 1 = t by omega,
      show 2 ^ 52 + (t * 2 ^ 52 + m) % 2 ^ 52 = m by omega]

theorem unitsAt_grid_succ {t m : Nat} (h : Grid t m) (hm : m < 2 ^ 53) :
    unitsAt (t * 2 ^ 52 + m + 1) = (m + 1) * 2 ^ t := by
  have hnext : Grid t (m + 1) := ⟨hm, h.2.imp_right fun hle => by omega⟩
  rw [Nat.add_assoc, unitsAt_grid hnext]

/-- Below a place there is a step as long as the one above it, unless the place is that of a power
of two. -/
theorem unitsAt_grid_pred {t m : Nat} (h : Grid t m) (hpos : 0 < m) (hpower : t = 0 ∨ 2 ^ 52 < m) :
    unitsAt (t * 2 ^ 52 + m - 1) = (m - 1) * 2 ^ t := by
  have hgrid : Grid t (m - 1) := ⟨by have := h.1; omega, hpower.imp_right fun hlt => by omega⟩
  rw [Nat.add_sub_assoc hpos, unitsAt_grid hgrid]

/-- Below a power of two the step is half as long. -/
theorem unitsAt_power_pred {t : Nat} (ht : 0 < t) :
    unitsAt (t * 2 ^ 52 + 2 ^ 52 - 1) = (2 ^ 53 - 1) * 2 ^ (t - 1) := by
  have hgrid : Grid (t - 1) (2 ^ 53 - 1) := ⟨by omega, Or.inr (by omega)⟩
  rw [show t * 2 ^ 52 + 2 ^ 52 - 1 = (t - 1) * 2 ^ 52 + (2 ^ 53 - 1) by omega, unitsAt_grid hgrid]

/-! ## Rounding -/

/-- A fraction within half of a whole number is rounded to it; at just half of an odd one it is
not. -/
theorem roundHalfEven_eq {num den m : Nat} (hden : 0 < den) (hlow : 2 * m * den ≤ 2 * num + den)
    (hhigh : 2 * num ≤ 2 * m * den + den)
    (hodd : m % 2 = 1 → 2 * m * den < 2 * num + den ∧ 2 * num < 2 * m * den + den) :
    roundHalfEven num den = m := by
  have hsplit := Nat.div_add_mod num den
  have hmod := Nat.mod_lt num hden
  unfold roundHalfEven
  dsimp only
  generalize num / den = q at hsplit ⊢
  generalize num % den = r at hsplit hmod ⊢
  have hle : q ≤ m := by
    by_contra hlt
    have : (m + 1) * den ≤ q * den := Nat.mul_le_mul_right den (by omega)
    nlinarith
  have hge : m ≤ q + 1 := by
    by_contra hlt
    have : (q + 2) * den ≤ m * den := Nat.mul_le_mul_right den (by omega)
    nlinarith
  rcases (by omega : q = m ∨ q + 1 = m) with rfl | rfl
  · have hprod : 2 * q * den = 2 * (den * q) := by ring
    rw [hprod] at hlow hhigh hodd
    split
    · rfl
    · rw [if_neg (by omega)]
      omega
  · have hprod : 2 * (q + 1) * den = 2 * (den * q) + 2 * den := by ring
    rw [hprod] at hlow hhigh hodd
    rw [if_neg (by omega)]
    split
    · rfl
    · omega

/-- The distance between neighbours is `2^t` units where a fraction has `52 + t` bits before the
point. -/
theorem placeOf_eq {num den t : Nat} (hden : 0 < den) (hlow : t = 0 ∨ 2 ^ 52 * (den * 2 ^ t) ≤ num)
    (hhigh : num < 2 ^ 53 * (den * 2 ^ t)) :
    placeOf num den = t * 2 ^ 52 + roundHalfEven num (den * 2 ^ t) := by
  have hlt : num / den < 2 ^ (53 + t) := by
    rw [Nat.div_lt_iff_lt_mul hden, Nat.pow_add, Nat.mul_assoc, Nat.mul_comm (2 ^ t)]
    exact hhigh
  have hlog : Nat.log2 (num / den) - 52 = t := by
    rcases hlow with rfl | hlow
    · by_cases hzero : num / den = 0
      · rw [hzero]
        rfl
      · have := (Nat.log2_lt hzero).mpr hlt
        omega
    · have hle : 2 ^ (52 + t) ≤ num / den := by
        rw [Nat.le_div_iff_mul_le hden, Nat.pow_add, Nat.mul_assoc, Nat.mul_comm (2 ^ t)]
        exact hlow
      have hne : num / den ≠ 0 := by
        have := Nat.two_pow_pos (52 + t)
        omega
      have := (Nat.log2_lt hne).mpr hlt
      have := (Nat.le_log2 hne).mpr hle
      omega
  simp only [placeOf, hlog, Nat.pow_eq]

/-- Between the middles of `m` steps and its neighbours, where the steps are equally long. -/
theorem placeOf_of_steps {num den t m : Nat} (hden : 0 < den) (hm : m < 2 ^ 53)
    (hstep : t = 0 ∨ 2 ^ 52 < m) (hlow : 2 * m * (den * 2 ^ t) ≤ 2 * num + den * 2 ^ t)
    (hhigh : 2 * num ≤ 2 * m * (den * 2 ^ t) + den * 2 ^ t)
    (hodd : m % 2 = 1 → 2 * m * (den * 2 ^ t) < 2 * num + den * 2 ^ t ∧
      2 * num < 2 * m * (den * 2 ^ t) + den * 2 ^ t) :
    placeOf num den = t * 2 ^ 52 + m := by
  have hpos : 0 < den * 2 ^ t := Nat.mul_pos hden (Nat.two_pow_pos t)
  rw [placeOf_eq hden, roundHalfEven_eq hpos hlow hhigh hodd]
  · refine hstep.imp_right fun hlt => ?_
    nlinarith
  · nlinarith

/-- The middles next to a place belong to it if it is even. -/
theorem belongs_iff {place num den : Nat} :
    belongs place num den = true ↔
      (unitsAt (place - 1) + unitsAt place) * den ≤ num ∧
      num ≤ (unitsAt place + unitsAt (place + 1)) * den ∧
      (place % 2 = 1 → (unitsAt (place - 1) + unitsAt place) * den < num ∧
        num < (unitsAt place + unitsAt (place + 1)) * den) := by
  unfold belongs
  by_cases heven : place % 2 = 0
  · simp [heven]
  · have hodd : place % 2 = 1 := by omega
    simp only [hodd, Nat.one_ne_zero, beq_iff_eq, if_false, Bool.and_eq_true, decide_eq_true_eq,
      true_imp_iff]
    constructor
    · rintro ⟨hlow, hhigh⟩
      exact ⟨hlow.le, hhigh.le, hlow, hhigh⟩
    · rintro ⟨-, -, hboth⟩
      exact hboth

/-- **What belongs to a place is rounded to it.** -/
theorem placeOf_of_belongs {place num den : Nat} (hden : 0 < den)
    (h : belongs place (2 * num) den = true) : placeOf num den = place := by
  obtain ⟨t, m, rfl, hgrid, hm⟩ := exists_grid place
  obtain ⟨hlow, hhigh, hodd⟩ := belongs_iff.mp h
  rw [unitsAt_grid hgrid, unitsAt_grid_succ hgrid hm] at hhigh hodd
  rw [unitsAt_grid hgrid] at hlow
  by_cases hstep : t = 0 ∨ 2 ^ 52 < m
  · rcases Nat.eq_zero_or_pos m with rfl | hpos
    · have habove : (0 * 2 ^ t + (0 + 1) * 2 ^ t) * den = den * 2 ^ t := by ring
      exact placeOf_of_steps hden hm hstep (by omega) (by omega) fun hk => by omega
    · rw [unitsAt_grid_pred hgrid hpos hstep] at hlow hodd
      obtain ⟨k, rfl⟩ : ∃ k, m = k + 1 := ⟨m - 1, by omega⟩
      rw [Nat.add_sub_cancel] at hlow hodd
      have hbelow : ((k * 2 ^ t + (k + 1) * 2 ^ t) * den) + den * 2 ^ t =
          2 * (k + 1) * (den * 2 ^ t) := by ring
      have habove : ((k + 1) * 2 ^ t + (k + 1 + 1) * 2 ^ t) * den =
          2 * (k + 1) * (den * 2 ^ t) + den * 2 ^ t := by ring
      refine placeOf_of_steps hden hm hstep (by omega) (by omega) fun hk => ?_
      have := hodd (by omega)
      omega
  · -- A power of two: the steps below are half as long, and a fraction there is rounded in those.
    obtain ⟨k, rfl⟩ : ∃ k, t = k + 1 := ⟨t - 1, by omega⟩
    obtain rfl : m = 2 ^ 52 := by
      have := hgrid.2
      omega
    have hpos : 0 < den * 2 ^ k := Nat.mul_pos hden (Nat.two_pow_pos k)
    have hdouble : den * 2 ^ (k + 1) = 2 * (den * 2 ^ k) := by ring
    rw [unitsAt_power_pred k.succ_pos, Nat.succ_sub_one] at hlow
    have hbelow : ((2 ^ 53 - 1) * 2 ^ k + 2 ^ 52 * 2 ^ (k + 1)) * den =
        (2 ^ 54 - 1) * (den * 2 ^ k) := by ring
    have habove : (2 ^ 52 * 2 ^ (k + 1) + (2 ^ 52 + 1) * 2 ^ (k + 1)) * den =
        (2 ^ 54 + 2) * (den * 2 ^ k) := by ring
    rw [hbelow] at hlow
    rw [habove] at hhigh
    by_cases hlt : num < 2 ^ 53 * (den * 2 ^ k)
    · rw [placeOf_eq hden (Or.inr (by omega)) hlt,
        roundHalfEven_eq hpos (m := 2 ^ 53) (by omega) (by omega) fun hk => by omega]
      omega
    · rw [placeOf_eq (t := k + 1) hden (Or.inr (by omega)) (by omega),
        roundHalfEven_eq (by omega) (m := 2 ^ 52) (by omega) (by omega) fun hk => by omega]

end LayoutLex
