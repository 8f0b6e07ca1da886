import LayoutLex.Proofs.Number.Digits
import LayoutLex.Proofs.Number.Rounding
import Mathlib.Algebra.Order.Field.Power
import Mathlib.Algebra.Order.Field.Rat
import Mathlib.Data.Rat.Cast.Order
import Mathlib.Tactic.FieldSimp
import Mathlib.Tactic.Positivity

/-!
# The shortest decimal reads back

A number is read back from any decimal between the middles of the number and its neighbours
(`Near`), so two facts are enough: every hit on a decimal grid is near, and the grid of seventeen
digits has a hit, because it is finer than the numbers are apart.

Numbers are compared as rationals here, counted in half units, so that the middles are whole.

Results:
* `value_trimmed`: trimming does not change the number.
* `place?_of_near`, `nearest_of_near`: what is near a number is read as that number.
* `onGrid?_ne_none`: seventeen digits always have a hit.
* `near_shortest`: the shortest decimal is near the number.
-/

namespace LayoutLex

open Binary64

/-! ## Decimals as fractions -/

namespace Decimal

/-- The number that a decimal denotes. -/
def value (d : Decimal) : ℚ :=
  d.significand * 10 ^ d.exponent

/-- The number that a decimal denotes, in half units. -/
def halfUnits (d : Decimal) : ℚ :=
  d.value * 2 ^ 1075

/-- A power of ten as a fraction of whole numbers, one of which is 1. -/
theorem ten_zpow (e : Int) :
    (10 : ℚ) ^ e = ((10 ^ e.toNat : Nat) : ℚ) / ((10 ^ (-e).toNat : Nat) : ℚ) := by
  obtain ⟨n, rfl | rfl⟩ := e.eq_nat_or_neg
  · simp
  · simp

theorem halfUnits_fraction (d : Decimal) :
    ((2 * d.fraction.1 : Nat) : ℚ) / (d.fraction.2 : ℚ) = d.halfUnits := by
  rw [halfUnits, value, ten_zpow, fraction, pow_succ (2 : ℚ) 1074]
  simp only [Nat.pow_eq, Nat.cast_mul, Nat.cast_pow, Nat.cast_ofNat]
  generalize (2 : ℚ) ^ 1074 = scale
  ring

theorem halfUnits_gridStep (n : Nat) (e : Int) :
    ((n * (gridStep e).1 : Nat) : ℚ) / ((gridStep e).2 : ℚ) = (⟨n, e⟩ : Decimal).halfUnits := by
  rw [halfUnits, value, ten_zpow, gridStep]
  simp only [Nat.pow_eq, Nat.cast_mul, Nat.cast_pow, Nat.cast_ofNat]
  generalize (2 : ℚ) ^ 1075 = scale
  ring

theorem halfUnits_of_significand_eq_zero {d : Decimal} (h : d.significand = 0) :
    d.halfUnits = 0 := by
  rw [halfUnits, value, h, Nat.cast_zero, zero_mul, zero_mul]

theorem value_trimmed (d : Decimal) : d.trimmed.value = d.value := by
  fun_induction trimmed d with
  | case1 d h ih =>
    have hsplit : ((10 * (d.significand / 10) : Nat) : ℚ) = d.significand := by
      rw [Nat.mul_div_cancel' (Nat.dvd_of_mod_eq_zero h.2)]
    rw [ih, value, value, zpow_add_one₀ (by norm_num), ← hsplit]
    push_cast
    ring
  | case2 d h => rfl

theorem value_lt (d : Decimal) : d.value < 10 ^ d.size := by
  have hlt : (d.significand : ℚ) < 10 ^ digitCount d.significand := by
    exact_mod_cast lt_pow_digitCount d.significand
  rw [value, size, zpow_add₀ (by norm_num), zpow_natCast]
  exact mul_lt_mul_of_pos_right hlt (by positivity)

theorem le_value {d : Decimal} (h : d.significand ≠ 0) : 10 ^ (d.size - 1) ≤ d.value := by
  have hle : ((10 : ℚ) ^ (digitCount d.significand - 1)) ≤ d.significand := by
    exact_mod_cast pow_digitCount_le h
  have hcast : d.size - 1 = ((digitCount d.significand - 1 : Nat) : Int) + d.exponent := by
    have := digitCount_pos d.significand
    rw [size]
    omega
  rw [value, hcast, zpow_add₀ (by norm_num), zpow_natCast]
  exact mul_le_mul_of_nonneg_right hle (by positivity)

end Decimal

/-! ## Between the middles -/

namespace Binary64

theorem unitsAt_strictMono : StrictMono unitsAt := by
  refine strictMono_nat_of_lt_succ fun place => ?_
  obtain ⟨t, m, rfl, hgrid, hm⟩ := exists_grid place
  rw [unitsAt_grid hgrid, unitsAt_grid_succ hgrid hm]
  exact Nat.mul_lt_mul_of_pos_right (Nat.lt_succ_self m) (Nat.two_pow_pos t)

/-- The half units lie between the middles of the place and its neighbours. The middles belong to
even places. -/
def Near (place : Nat) (x : ℚ) : Prop :=
  (unitsAt (place - 1) + unitsAt place : Nat) ≤ x ∧
    x ≤ (unitsAt place + unitsAt (place + 1) : Nat) ∧
    (place % 2 = 1 →
      (unitsAt (place - 1) + unitsAt place : Nat) < x ∧
        x < (unitsAt place + unitsAt (place + 1) : Nat))

theorem belongs_iff_near {place num den : Nat} (hden : 0 < den) :
    belongs place num den = true ↔ Near place ((num : ℚ) / (den : ℚ)) := by
  have hpos : (0 : ℚ) < den := by exact_mod_cast hden
  rw [belongs_iff, Near, le_div_iff₀ hpos, div_le_iff₀ hpos, lt_div_iff₀ hpos, div_lt_iff₀ hpos]
  norm_cast

theorem near_zero : Near 0 0 := by
  refine ⟨le_rfl, Nat.cast_nonneg _, fun hodd => ?_⟩
  cases hodd

/-- What is less than one unit is near zero only. -/
theorem eq_zero_of_near {place : Nat} {x : ℚ} (h : Near place x) (hx : x < 1) : place = 0 := by
  by_contra hne
  have hunits : 0 < unitsAt place := by
    have := unitsAt_strictMono (Nat.pos_of_ne_zero hne)
    omega
  have hone : ((1 : Nat) : ℚ) ≤ (unitsAt (place - 1) + unitsAt place : Nat) := by
    exact_mod_cast (by omega)
  have := h.1
  push_cast at hone this
  linarith

end Binary64

/-! ## Near decimals are read as the place -/

namespace Decimal

theorem halfUnits_lt_one {d : Decimal} (h : d.size < -330) : d.halfUnits < 1 := by
  have hpower : (2 : ℚ) ^ 1075 < 10 ^ 331 := by
    have : 2 ^ 1075 < 10 ^ 331 := by decide +kernel
    exact_mod_cast this
  calc d.halfUnits < 10 ^ d.size * 2 ^ 1075 :=
        mul_lt_mul_of_pos_right d.value_lt (by positivity)
    _ ≤ 10 ^ (-331 : Int) * 2 ^ 1075 := by
        have := zpow_le_zpow_right₀ (a := (10 : ℚ)) (by norm_num) (by omega : d.size ≤ -331)
        exact mul_le_mul_of_nonneg_right this (by positivity)
    _ < 10 ^ (-331 : Int) * 10 ^ 331 := mul_lt_mul_of_pos_left hpower (by positivity)
    _ = 1 := by
        rw [← zpow_natCast, ← zpow_add₀ (by norm_num)]
        rfl

/-- A decimal of size above 310 is past the middle above the greatest finite number. -/
theorem not_near_of_lt_size {d : Decimal} {place : Nat} (hplace : place < infinityPlace)
    (hsignificand : d.significand ≠ 0) (h : 310 < d.size) : ¬ Near place d.halfUnits := by
  rintro ⟨-, hhigh, -⟩
  have hgrid : Grid 2046 (2 ^ 52) := ⟨by omega, Or.inr le_rfl⟩
  have hmax : unitsAt (place + 1) ≤ 2 ^ 52 * 2 ^ 2046 := by
    rw [← unitsAt_grid hgrid]
    exact unitsAt_strictMono.monotone hplace
  have hlt := unitsAt_strictMono (Nat.lt_add_one place)
  have hpower : 2 * (2 ^ 52 * 2 ^ 2046) < 10 ^ 310 * 2 ^ 1075 := by decide +kernel
  have hnat : unitsAt place + unitsAt (place + 1) < 10 ^ 310 * 2 ^ 1075 :=
    lt_of_le_of_lt (by omega) hpower
  have hsize : (10 : ℚ) ^ 310 ≤ 10 ^ (d.size - 1) := by
    have := zpow_le_zpow_right₀ (a := (10 : ℚ)) (by norm_num) (by omega : 310 ≤ d.size - 1)
    exact_mod_cast this
  have hlow : (10 : ℚ) ^ 310 * 2 ^ 1075 ≤ d.halfUnits :=
    mul_le_mul_of_nonneg_right (hsize.trans (le_value hsignificand)) (by positivity)
  have hcast : ((unitsAt place + unitsAt (place + 1) : Nat) : ℚ) < 10 ^ 310 * 2 ^ 1075 := by
    exact_mod_cast hnat
  exact absurd (hlow.trans hhigh) (not_le_of_gt hcast)

/-- **A decimal is read as the place that it is near**, if that is the place of a finite number. -/
theorem place?_of_near {d : Decimal} {place : Nat} (h : Near place d.halfUnits) :
    d.place? = if place < infinityPlace then some place else none := by
  unfold place?
  split
  · next hsmall =>
    have hlt : d.halfUnits < 1 := by
      rcases hsmall with hzero | hsize
      · rw [halfUnits_of_significand_eq_zero hzero]
        exact zero_lt_one
      · exact halfUnits_lt_one hsize
    rw [eq_zero_of_near h hlt]
    rfl
  · next hsmall =>
    split
    · next hlarge =>
      have hinfinite : ¬ place < infinityPlace :=
        fun hlt => not_near_of_lt_size hlt (fun hzero => hsmall (Or.inl hzero)) hlarge h
      rw [if_neg hinfinite]
    · have hden : 0 < d.fraction.2 := Nat.pow_pos (by decide)
      rw [← halfUnits_fraction, ← belongs_iff_near hden] at h
      rw [placeOf_of_belongs hden h]

end Decimal

/-! ## Seventeen digits are enough -/

namespace Binary64

theorem gridStep_pos (exponent : Int) :
    0 < (gridStep exponent).1 ∧ 0 < (gridStep exponent).2 := by
  unfold gridStep
  simp only [Nat.pow_eq]
  constructor
  · positivity
  · positivity

theorem near_of_onGrid? {place : Nat} {exponent : Int} {d : Decimal}
    (h : onGrid? place exponent = some d) : Near place d.halfUnits := by
  obtain ⟨-, hden⟩ := gridStep_pos exponent
  have hnear : ∀ n, belongs place (n * (gridStep exponent).1) (gridStep exponent).2 = true →
      Near place (⟨n, exponent⟩ : Decimal).halfUnits := by
    intro n hn
    rw [← Decimal.halfUnits_gridStep]
    exact (belongs_iff_near hden).mp hn
  simp only [onGrid?] at h
  split at h
  · next habove =>
    cases h
    exact hnear _ (Bool.and_eq_true_iff.mp habove).1
  · split at h
    · next hbelow =>
      cases h
      exact hnear _ hbelow
    · cases h

theorem belongs_of_lt {place num den : Nat}
    (hlow : (unitsAt (place - 1) + unitsAt place) * den < num)
    (hhigh : num < (unitsAt place + unitsAt (place + 1)) * den) : belongs place num den = true :=
  belongs_iff.mpr ⟨hlow.le, hhigh.le, fun _ => ⟨hlow, hhigh⟩⟩

/-- A grid without a hit is at least as coarse as the numbers are apart. -/
theorem le_gridStep_of_onGrid?_eq_none {place : Nat} {exponent : Int} (hpos : 0 < place)
    (h : onGrid? place exponent = none) :
    unitsAt (place + 1) * (gridStep exponent).2 ≤
      unitsAt (place - 1) * (gridStep exponent).2 + (gridStep exponent).1 := by
  obtain ⟨hstep, hden⟩ := gridStep_pos exponent
  simp only [onGrid?] at h
  generalize (gridStep exponent).1 = step at h hstep ⊢
  generalize (gridStep exponent).2 = den at h hden ⊢
  have hbelow := Nat.div_mul_le_self (2 * unitsAt place * den) step
  have habove := Nat.lt_div_mul_add hstep (a := 2 * unitsAt place * den)
  generalize 2 * unitsAt place * den / step = below at h hbelow habove
  have hprev : unitsAt (place - 1) * den < unitsAt place * den :=
    Nat.mul_lt_mul_of_pos_right (unitsAt_strictMono (by omega)) hden
  have hnext : unitsAt place * den < unitsAt (place + 1) * den :=
    Nat.mul_lt_mul_of_pos_right (unitsAt_strictMono (by omega)) hden
  have hmiss : belongs place (below * step) den = false ∧
      belongs place ((below + 1) * step) den = false := by
    split at h
    · cases h
    · next hfirst =>
      split at h
      · cases h
      · next hsecond =>
        rw [Bool.not_eq_true] at hsecond
        simp only [hsecond, Bool.not_false, Bool.true_or, Bool.and_true, Bool.not_eq_true] at hfirst
        exact ⟨hsecond, hfirst⟩
  have hlow : below * step ≤ (unitsAt (place - 1) + unitsAt place) * den := by
    by_contra hlt
    have hhit := belongs_of_lt (lt_of_not_ge hlt) (by linarith)
    rw [hmiss.1] at hhit
    cases hhit
  have hhigh : (unitsAt place + unitsAt (place + 1)) * den ≤ (below + 1) * step := by
    by_contra hlt
    have hhit := belongs_of_lt (by linarith) (lt_of_not_ge hlt)
    rw [hmiss.2] at hhit
    cases hhit
  linarith

/-- The same in half units. -/
theorem units_le_of_onGrid?_eq_none {place : Nat} {exponent : Int} (hpos : 0 < place)
    (h : onGrid? place exponent = none) :
    (unitsAt (place + 1) : ℚ) ≤
      unitsAt (place - 1) + (⟨1, exponent⟩ : Decimal).halfUnits := by
  have hden : (0 : ℚ) < (gridStep exponent).2 := by
    exact_mod_cast (gridStep_pos exponent).2
  have hcoarse := le_gridStep_of_onGrid?_eq_none hpos h
  rw [← Decimal.halfUnits_gridStep, ← sub_le_iff_le_add', le_div_iff₀ hden, sub_mul,
    sub_le_iff_le_add', Nat.one_mul]
  exact_mod_cast hcoarse

/-- The neighbours of a number are further apart than 2 in 10^16 parts of it. -/
theorem units_lt_distance {place : Nat} (hpos : 0 < place) :
    10 ^ 16 * unitsAt (place - 1) + 2 * unitsAt place < 10 ^ 16 * unitsAt (place + 1) := by
  obtain ⟨t, m, rfl, hgrid, hm⟩ := exists_grid place
  rw [unitsAt_grid_succ hgrid hm, unitsAt_grid hgrid]
  by_cases hstep : t = 0 ∨ 2 ^ 52 < m
  · have hmpos : 0 < m := by omega
    rw [unitsAt_grid_pred hgrid hmpos hstep]
    obtain ⟨k, rfl⟩ : ∃ k, m = k + 1 := ⟨m - 1, by omega⟩
    have hpower := Nat.two_pow_pos t
    have hsteps : k * 2 ^ t ≤ 2 ^ 53 * 2 ^ t := Nat.mul_le_mul_right _ (by omega)
    rw [Nat.add_sub_cancel]
    linarith
  · obtain ⟨k, rfl⟩ : ∃ k, t = k + 1 := ⟨t - 1, by omega⟩
    obtain rfl : m = 2 ^ 52 := by
      have := hgrid.2
      omega
    have hpower := Nat.two_pow_pos k
    have hdouble : 2 ^ (k + 1) = 2 * 2 ^ k := Nat.pow_succ'
    rw [unitsAt_power_pred k.succ_pos, Nat.succ_sub_one, hdouble]
    omega

/-- The digits of a quotient shifted by `s` digits bound it from below. -/
theorem pow_digitCount_div_le {a b p s : Nat} (hp : p = 10 ^ s) (ha : 1 ≤ a) (hb : 0 < b)
    (h : b ≤ p) : (10 : ℚ) ^ ((digitCount (a * p / b) : Int) - s - 1) * b ≤ a := by
  have hpos : 0 < a * p / b := Nat.div_pos (h.trans (Nat.le_mul_of_pos_left _ ha)) hb
  have hdigits := digitCount_pos (a * p / b)
  have hle := (Nat.mul_le_mul_right b (pow_digitCount_le hpos.ne')).trans (Nat.div_mul_le_self _ _)
  rw [sub_right_comm, ← Nat.cast_pred hdigits, zpow_sub₀ (by norm_num), zpow_natCast, zpow_natCast,
    div_mul_eq_mul_div, div_le_iff₀ (by positivity)]
  rw [hp] at hle ⊢
  exact_mod_cast hle

/-- A number is at least the power of ten just below it. -/
theorem le_units {place : Nat} (hpos : 0 < place) :
    (10 : ℚ) ^ (decimalSize place - 1) * 2 ^ 1074 ≤ unitsAt place := by
  have hunits : 1 ≤ unitsAt place := by
    have := unitsAt_strictMono hpos
    omega
  refine le_of_eq_of_le (congrArg (10 ^ (decimalSize place - 1) * ·) ?_)
    (pow_digitCount_div_le (s := decimalShift) ?_ hunits ?_ ?_)
  · simp only [Nat.pow_eq, Nat.cast_pow, Nat.cast_ofNat]
  · rw [Nat.pow_eq]
  · decide +kernel
  · decide +kernel

/-- With seventeen digits a step is at most 2 in 10^16 parts of the number. -/
theorem halfUnits_step_le {place : Nat} (hpos : 0 < place) :
    10 ^ 16 * (⟨1, decimalSize place - 17⟩ : Decimal).halfUnits ≤ 2 * unitsAt place := by
  have hpower : (10 : ℚ) ^ (decimalSize place - 1) = 10 ^ 16 * 10 ^ (decimalSize place - 17) := by
    rw [← zpow_natCast, ← zpow_add₀ (by norm_num)]
    congr 1
    omega
  have hlow := le_units hpos
  rw [hpower] at hlow
  rw [Decimal.halfUnits, Decimal.value, Nat.cast_one, one_mul, pow_succ (2 : ℚ) 1074]
  generalize (2 : ℚ) ^ 1074 = scale at hlow ⊢
  linarith

/-- **Seventeen digits always have a hit.** -/
theorem onGrid?_ne_none {place : Nat} (hpos : 0 < place) :
    onGrid? place (decimalSize place - 17) ≠ none := by
  intro hnone
  have hcoarse := units_le_of_onGrid?_eq_none hpos hnone
  have hstep := halfUnits_step_le hpos
  have hwide : (10 ^ 16 * unitsAt (place - 1) + 2 * unitsAt place : ℚ) <
      10 ^ 16 * unitsAt (place + 1) := by
    exact_mod_cast units_lt_distance hpos
  linarith

theorem near_shortestAt {place : Nat} (hpos : 0 < place) :
    Near place (shortestAt place).halfUnits := by
  unfold shortestAt
  dsimp only
  rw [Decimal.halfUnits, Decimal.value_trimmed, ← Decimal.halfUnits]
  cases hfound : (List.range 17).findSome? fun n =>
      onGrid? place (decimalSize place - (n + 1 : Nat)) with
  | none =>
    have hlast := List.findSome?_eq_none_iff.mp hfound 16 (by decide)
    exact absurd hlast (onGrid?_ne_none hpos)
  | some d =>
    obtain ⟨n, -, hhit⟩ := List.exists_of_findSome?_eq_some hfound
    exact near_of_onGrid? hhit

/-- **The shortest decimal is near the number.** -/
theorem near_shortest (x : Binary64) : Near x.place x.shortest.halfUnits := by
  unfold shortest
  split
  · next hzero =>
    have hplace : x.place = 0 := beq_iff_eq.mp hzero
    rw [hplace, Decimal.halfUnits_of_significand_eq_zero rfl]
    exact near_zero
  · next hzero =>
    have hplace : x.place ≠ 0 := fun heq => hzero (beq_iff_eq.mpr heq)
    exact near_shortestAt (Nat.pos_of_ne_zero hplace)

end Binary64

/-- **What is near a finite number is read as that number.** -/
theorem Decimal.nearest_of_near {d : Decimal} {x : Binary64} (hfinite : x.isFinite = true)
    (h : Near x.place d.halfUnits) : d.nearest x.negative = x := by
  have hplace := place?_of_near h
  rw [if_pos (of_decide_eq_true hfinite)] at hplace
  unfold nearest
  split
  · next hnone =>
    rw [hplace] at hnone
    cases hnone
  · next place hsome =>
    rw [hplace] at hsome
    cases hsome
    rfl

end LayoutLex
