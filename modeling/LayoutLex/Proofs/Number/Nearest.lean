import LayoutLex.Proofs.Number.Shortest
import Mathlib.Algebra.Order.Archimedean.Basic

/-!
# What a decimal is read as

Between any two neighbouring numbers there is a middle, so every number is near some place
(`exists_near`), and a decimal is read as the place that it is near. Near is the same as nearest: no
place has a number at a smaller distance, and where two are equally near the place is even.

* `magnitude` is the number at a place. The place of infinity counts as the number that would come
  next, 2^1024, so what is not nearer to a finite number than to that is read as infinite.
* `Nearest` says that a place is the nearest to a number.

Results:
* `Near.nearest`, `Nearest.near`: near is nearest.
* `Nearest.unique`: only one place is the nearest.
* `nearest_place`: a decimal is read as what is nearest to it, be that infinite.
* `nearest_eq_iff`: a decimal is read as a finite number exactly if that is the nearest.
-/

namespace LayoutLex

namespace Binary64

/-! ## Every number is near some place -/

/-- **Every number is near some place.** -/
theorem exists_near {x : ℚ} (hx : 0 ≤ x) : ∃ place, Near place x := by
  have hpast : ∃ place, x < 2 * unitsAt (place + 1) := by
    obtain ⟨place, hplace⟩ := exists_nat_gt x
    refine ⟨place, hplace.trans_le ?_⟩
    have hle : place + 1 ≤ unitsAt (place + 1) := unitsAt_strictMono.le_apply
    exact_mod_cast (by omega : place ≤ 2 * unitsAt (place + 1))
  -- The number lies between the last place that is not past it and the next one.
  obtain ⟨place, hhigh, hlow⟩ : ∃ place, x < 2 * unitsAt (place + 1) ∧ 2 * unitsAt place ≤ x := by
    refine ⟨Nat.find hpast, Nat.find_spec hpast, ?_⟩
    cases hfirst : Nat.find hpast with
    | zero => simpa [unitsAt] using hx
    | succ place => exact not_lt.mp (Nat.find_min hpast (by omega))
  have hbelow : place % 2 = 1 → (unitsAt (place - 1) : ℚ) < unitsAt place := fun hodd => by
    exact_mod_cast unitsAt_strictMono (by omega : place - 1 < place)
  have hbelow' : (unitsAt (place - 1) : ℚ) ≤ unitsAt place := by
    exact_mod_cast unitsAt_strictMono.monotone (Nat.sub_le place 1)
  have habove : (unitsAt (place + 1) : ℚ) < unitsAt (place + 1 + 1) := by
    exact_mod_cast unitsAt_strictMono (Nat.lt_succ_self (place + 1))
  rcases lt_trichotomy x (unitsAt place + unitsAt (place + 1) : ℚ) with hlt | heq | hgt
  · refine ⟨place, ?_, ?_, fun hodd => ⟨?_, ?_⟩⟩
    · push_cast
      linarith
    · push_cast
      exact hlt.le
    · push_cast
      linarith [hbelow hodd]
    · push_cast
      exact hlt
  · -- In the middle the even one of the two.
    rcases Nat.even_or_odd' place with ⟨k, hk | hk⟩
    · refine ⟨place, ?_, ?_, fun hodd => by omega⟩
      · push_cast
        linarith
      · push_cast
        exact heq.le
    · refine ⟨place + 1, ?_, ?_, fun hodd => by omega⟩
      · rw [Nat.add_sub_cancel]
        push_cast
        exact heq.ge
      · push_cast
        linarith
  · refine ⟨place + 1, ?_, ?_, fun hodd => ⟨?_, ?_⟩⟩
    · rw [Nat.add_sub_cancel]
      push_cast
      exact hgt.le
    · push_cast
      linarith
    · rw [Nat.add_sub_cancel]
      push_cast
      exact hgt
    · push_cast
      linarith

/-! ## Near is nearest -/

/-- The number at a place. -/
def magnitude (place : Nat) : ℚ :=
  unitsAt place / 2 ^ 1074

/-- No place up to that of infinity has a number nearer to `q`, and if another one has one equally
near then the place is even. -/
structure Nearest (place : Nat) (q : ℚ) : Prop where
  distance_le : ∀ other ≤ infinityPlace, |q - magnitude place| ≤ |q - magnitude other|
  even_of_tie : ∀ other ≤ infinityPlace, other ≠ place →
    |q - magnitude place| = |q - magnitude other| → place % 2 = 0

/-- Of two numbers the greater one is at most as far as the smaller one exactly from what is not
below their middle. -/
theorem distance_le_iff {x a b : ℚ} (h : a < b) : |x - b| ≤ |x - a| ↔ a + b ≤ 2 * x := by
  constructor
  · intro hle
    by_contra hlt
    have hcloser : |x - a| < |x - b| := by
      rw [abs_of_neg (by linarith : x - b < 0), abs_lt]
      constructor
      · linarith
      · linarith
    exact absurd hle (not_le_of_gt hcloser)
  · intro hle
    rw [abs_of_pos (by linarith : 0 < x - a), abs_le]
    constructor
    · linarith
    · linarith

/-- The same with the two exchanged. -/
theorem distance_le_iff' {x a b : ℚ} (h : a < b) : |x - a| ≤ |x - b| ↔ 2 * x ≤ a + b := by
  have hswap := distance_le_iff (x := -x) (neg_lt_neg h)
  rw [neg_sub_neg, neg_sub_neg, abs_sub_comm a x, abs_sub_comm b x] at hswap
  rw [hswap]
  constructor
  · intro hle
    linarith
  · intro hle
    linarith

theorem magnitude_strictMono : StrictMono magnitude := by
  intro a b h
  have hlt : (unitsAt a : ℚ) < unitsAt b := by exact_mod_cast unitsAt_strictMono h
  exact div_lt_div_of_pos_right hlt (by positivity)

/-- In half units, near is between the middles of magnitudes. -/
theorem near_iff {place : Nat} {q : ℚ} : Near place (q * 2 ^ 1075) ↔
    magnitude (place - 1) + magnitude place ≤ 2 * q ∧
      2 * q ≤ magnitude place + magnitude (place + 1) ∧
      (place % 2 = 1 → magnitude (place - 1) + magnitude place < 2 * q ∧
        2 * q < magnitude place + magnitude (place + 1)) := by
  have hpos : (0 : ℚ) < 2 ^ 1074 := by positivity
  have hhalf : q * 2 ^ 1075 = 2 * q * 2 ^ 1074 := by
    rw [pow_succ (2 : ℚ) 1074]
    generalize (2 : ℚ) ^ 1074 = scale
    ring
  rw [Near, hhalf]
  simp only [magnitude, ← add_div, div_le_iff₀ hpos, le_div_iff₀ hpos, div_lt_iff₀ hpos,
    lt_div_iff₀ hpos, Nat.cast_add]

theorem Near.nearest {place : Nat} {q : ℚ} (h : Near place (q * 2 ^ 1075)) : Nearest place q := by
  obtain ⟨hlow, hhigh, hodd⟩ := near_iff.mp h
  have hbelow : ∀ other < place, magnitude other ≤ magnitude (place - 1) := fun other hlt =>
    magnitude_strictMono.monotone (by omega)
  have habove : ∀ other, place < other → magnitude (place + 1) ≤ magnitude other :=
    fun other hlt => magnitude_strictMono.monotone hlt
  refine ⟨fun other _ => ?_, fun other _ hne htie => ?_⟩
  · rcases lt_trichotomy other place with hlt | rfl | hlt
    · rw [distance_le_iff (magnitude_strictMono hlt)]
      linarith [hbelow other hlt]
    · exact le_rfl
    · rw [distance_le_iff' (magnitude_strictMono hlt)]
      linarith [habove other hlt]
  · by_contra heven
    obtain ⟨hlow, hhigh⟩ := hodd (by omega)
    rcases lt_or_gt_of_ne hne with hlt | hlt
    · have hle := (distance_le_iff' (magnitude_strictMono hlt)).mp htie.ge
      linarith [hbelow other hlt]
    · have hle := (distance_le_iff (magnitude_strictMono hlt)).mp htie.ge
      linarith [habove other hlt]

theorem Nearest.near {place : Nat} {q : ℚ} (hplace : place < infinityPlace) (hq : 0 ≤ q)
    (h : Nearest place q) : Near place (q * 2 ^ 1075) := by
  have hnext : magnitude place < magnitude (place + 1) :=
    magnitude_strictMono (Nat.lt_succ_self place)
  have hhigh := (distance_le_iff' hnext).mp (h.distance_le _ hplace)
  have hlow : magnitude (place - 1) + magnitude place ≤ 2 * q := by
    cases place with
    | zero =>
      have hzero : magnitude 0 = 0 := by simp [magnitude, unitsAt]
      rw [Nat.zero_sub, hzero]
      linarith
    | succ k =>
      have hprevious : magnitude k < magnitude (k + 1) := magnitude_strictMono (Nat.lt_succ_self k)
      exact (distance_le_iff hprevious).mp (h.distance_le _ (by omega))
  rw [near_iff]
  refine ⟨hlow, hhigh, fun hodd => ⟨hlow.lt_of_ne fun heq => ?_, hhigh.lt_of_ne fun heq => ?_⟩⟩
  · -- At the middle to the place below the two are equally near.
    have hprevious : magnitude (place - 1) < magnitude place := magnitude_strictMono (by omega)
    have htie := le_antisymm ((distance_le_iff hprevious).mpr heq.le)
      ((distance_le_iff' hprevious).mpr heq.ge)
    have := h.even_of_tie _ (by omega) (by omega) htie
    omega
  · have htie := le_antisymm ((distance_le_iff' hnext).mpr heq.le)
      ((distance_le_iff hnext).mpr heq.ge)
    have := h.even_of_tie _ hplace (by omega) htie
    omega

/-- What is not below the middle between the greatest number and 2^1024 is nearest to infinity. -/
theorem nearest_infinityPlace {q : ℚ}
    (h : magnitude (infinityPlace - 1) + magnitude infinityPlace ≤ 2 * q) :
    Nearest infinityPlace q := by
  refine ⟨fun other hle => ?_, fun _ _ _ _ => by decide⟩
  rcases Nat.eq_or_lt_of_le hle with rfl | hlt
  · exact le_rfl
  · have hbelow : magnitude other ≤ magnitude (infinityPlace - 1) :=
      magnitude_strictMono.monotone (by omega)
    rw [distance_le_iff (magnitude_strictMono hlt)]
    linarith

/-- Only one place is the nearest. -/
theorem Nearest.unique {a b : Nat} {q : ℚ} (ha : Nearest a q) (hb : Nearest b q)
    (hale : a ≤ infinityPlace) (hble : b ≤ infinityPlace) : a = b := by
  wlog hlt : a < b generalizing a b with hsymm
  · rcases Nat.lt_trichotomy a b with hab | heq | hba
    · exact absurd hab hlt
    · exact heq
    · exact (hsymm hb ha hble hale hba).symm
  exfalso
  have htie : |q - magnitude a| = |q - magnitude b| :=
    le_antisymm (ha.distance_le b hble) (hb.distance_le a hale)
  have hmiddle : magnitude a + magnitude b ≤ 2 * q :=
    (distance_le_iff (magnitude_strictMono hlt)).mp htie.ge
  -- There is no place between the two, since it would be nearer. So one of them is odd.
  have hnext : b ≤ a + 1 := by
    by_contra hgap
    have hnearer := (distance_le_iff' (magnitude_strictMono (Nat.lt_succ_self a))).mp
      (ha.distance_le (a + 1) (by omega))
    linarith [magnitude_strictMono (by omega : a + 1 < b)]
  have heven := ha.even_of_tie b hble hlt.ne' htie
  have heven' := hb.even_of_tie a hale hlt.ne htie.symm
  omega

end Binary64

open Binary64

/-! ## What a decimal is read as -/

namespace Decimal

theorem value_nonneg (d : Decimal) : 0 ≤ d.value := by
  rw [value]
  positivity

theorem near_of_place? {d : Decimal} {place : Nat} (h : d.place? = some place) :
    Near place d.halfUnits := by
  have hnonneg : 0 ≤ d.halfUnits := mul_nonneg d.value_nonneg (by positivity)
  obtain ⟨found, hfound⟩ := exists_near hnonneg
  have hplace := place?_of_near hfound
  rw [h] at hplace
  split at hplace
  · cases hplace
    exact hfound
  · cases hplace

/-- **A decimal is read as what is nearest to it**, be that infinite. -/
theorem nearest_place (d : Decimal) (negative : Bool) :
    (d.nearest negative).negative = negative ∧ (d.nearest negative).place ≤ infinityPlace ∧
      Nearest (d.nearest negative).place d.value := by
  unfold nearest
  split
  · next hnone =>
    have hnonneg : 0 ≤ d.halfUnits := mul_nonneg d.value_nonneg (by positivity)
    obtain ⟨found, hfound⟩ := exists_near hnonneg
    have hplace := place?_of_near hfound
    rw [hnone] at hplace
    have hpast : infinityPlace ≤ found := by
      by_contra hlt
      rw [if_pos (by omega)] at hplace
      cases hplace
    have hlow := (near_iff.mp hfound).1
    have hmono := magnitude_strictMono.monotone
    have habove : magnitude infinityPlace ≤ magnitude found := hmono hpast
    have hbelow : magnitude (infinityPlace - 1) ≤ magnitude (found - 1) :=
      hmono (Nat.sub_le_sub_right hpast 1)
    exact ⟨rfl, le_rfl, nearest_infinityPlace (by linarith)⟩
  · next place hsome => exact ⟨rfl, (place?_lt hsome).le, (near_of_place? hsome).nearest⟩

/-- **A decimal is read as a finite number exactly if that is the nearest**, with the sign that is
given. -/
theorem nearest_eq_iff {d : Decimal} {negative : Bool} {x : Binary64}
    (hfinite : x.isFinite = true) :
    d.nearest negative = x ↔ x.negative = negative ∧ Nearest x.place d.value := by
  have hplace : x.place < infinityPlace := of_decide_eq_true hfinite
  constructor
  · rintro rfl
    obtain ⟨hsign, -, hnearest⟩ := d.nearest_place negative
    exact ⟨hsign, hnearest⟩
  · rintro ⟨rfl, hnearest⟩
    exact nearest_of_near hfinite (hnearest.near hplace d.value_nonneg)

end Decimal

end LayoutLex
