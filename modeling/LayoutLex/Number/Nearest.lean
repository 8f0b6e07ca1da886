import LayoutLex.Number.Binary64
import LayoutLex.Number.Decimal

/-!
# The number nearest to a decimal

`Decimal.nearest` gives the binary64 number nearest to a decimal; of two that are equally near,
the one with the even place. Decimals past the middle between the largest number and the next
power of two become infinite.

* The decimal is taken as an exact fraction of units of 2^-1074. `placeOf` finds the distance
  between neighbouring numbers there, `2^t` units, and rounds to a whole multiple `m` of it: the
  place is `t · 2^52 + m`, also where rounding up reaches the next power of two.
* A decimal of size above 310 is past every number and one of size below -330 is nearer to zero
  than to the first unit, so their powers of ten are not computed.
-/

namespace LayoutLex

/-- The whole number nearest to `num / den`, the even one of two. -/
def roundHalfEven (num den : Nat) : Nat :=
  let q := num / den
  let twice := 2 * (num % den)
  if twice < den then q
  else if den < twice then q + 1
  else q + q % 2

/-- The place of the number nearest to `num / den` units. -/
def placeOf (num den : Nat) : Nat :=
  let t := Nat.log2 (num / den) - 52
  t * Nat.pow 2 52 + roundHalfEven num (den * Nat.pow 2 t)

namespace Decimal

/-- The decimal as a fraction of units of 2^-1074. -/
def fraction (d : Decimal) : Nat × Nat :=
  (d.significand * Nat.pow 10 d.exponent.toNat * Nat.pow 2 1074, Nat.pow 10 (-d.exponent).toNat)

/-- The place of the number nearest to the decimal, unless the decimal is past every number. -/
def place? (d : Decimal) : Option Nat :=
  if d.significand = 0 ∨ d.size < -330 then some 0
  else if 310 < d.size then none
  else
    let place := placeOf d.fraction.1 d.fraction.2
    if place < infinityPlace then some place else none

theorem place?_lt {d : Decimal} {place : Nat} (h : d.place? = some place) :
    place < infinityPlace := by
  unfold place? at h
  split at h
  · cases h; decide
  · split at h
    · cases h
    · simp only at h
      split at h
      · cases h; assumption
      · cases h

/-- The number nearest to the decimal with the given sign, infinite past every number. -/
def nearest (negative : Bool) (d : Decimal) : Binary64 :=
  match h : d.place? with
  | none => Binary64.infinity negative
  | some place => ⟨negative, place, Nat.lt_trans (place?_lt h) (by decide)⟩

end Decimal

end LayoutLex
