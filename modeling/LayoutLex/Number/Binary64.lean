/-!
# Reals of 64 bits

The numbers of IEEE 754 binary64 as a sign and a place. The places are the nonnegative numbers of
the format in increasing order: place 0 is zero, place `infinityPlace` is infinity, and the places
past that are not numbers. A place is also the lower 63 bits of the format's word.

* `unitsAt place` is the number at a place, counted in units of 2^-1074, the smallest positive
  number. All arithmetic of this library is done on such counts, which are exact.
* `same` is the equality of numbers: the two zeros are equal and what is no number equals nothing.
-/

namespace LayoutLex

/-- The place of infinity: eleven exponent bits, all set. -/
def infinityPlace : Nat := 0x7FF * Nat.pow 2 52

/-- A number of the format. -/
structure Binary64 where
  negative : Bool
  place : Nat
  place_lt : place < Nat.pow 2 63 := by decide
  deriving DecidableEq, Repr

namespace Binary64

instance : Inhabited Binary64 := ⟨⟨false, 0, by decide⟩⟩

/-- Positive or negative zero. -/
def zero (negative : Bool) : Binary64 := ⟨negative, 0, by decide⟩

/-- Positive or negative infinity. -/
def infinity (negative : Bool) : Binary64 := ⟨negative, infinityPlace, by decide⟩

/-- The number with the given word. -/
def ofBits (word : UInt64) : Binary64 :=
  ⟨Nat.pow 2 63 ≤ word.toNat, word.toNat % Nat.pow 2 63, Nat.mod_lt _ (by decide)⟩

/-- The number is neither infinite nor missing. -/
def isFinite (x : Binary64) : Bool :=
  x.place < infinityPlace

/-- There is no number. -/
def isNaN (x : Binary64) : Bool :=
  infinityPlace < x.place

/-- The number is one of the two zeros. -/
def isZero (x : Binary64) : Bool :=
  x.place == 0

/-- Both are numbers, and the same one. -/
def same (x y : Binary64) : Bool :=
  !x.isNaN && x.place == y.place && (x.negative == y.negative || x.isZero)

/-- The number at a place, in units of 2^-1074. Up to place 2^53 the numbers lie one unit apart;
each 2^52 places further the distance doubles. -/
def unitsAt (place : Nat) : Nat :=
  if place < Nat.pow 2 52 then place
  else (Nat.pow 2 52 + place % Nat.pow 2 52) * Nat.pow 2 (place / Nat.pow 2 52 - 1)

/-- The number without its sign, in units of 2^-1074. -/
def units (x : Binary64) : Nat :=
  unitsAt x.place

end Binary64

end LayoutLex
