import LayoutLex.Number.Shortest

/-!
# The text of a real

How a real is written: with its shortest digits, always with a point, and without a zero before
the point or after it unless it is the only digit.

* Numbers from 1e-4 up to but not including 1e16 are positional (`1.`, `.5`, `-120.25`), all other
  numbers have one digit before the point and an exponent (`1.e-7`, `-2.5e300`). Zero is `0.`.
* What is not a finite number is `NaN`, `inf` or `-inf`.

Since there always is a point or an exponent, the text of a finite real is never that of an
integer.
-/

namespace LayoutLex

/-- The smallest decimal size that is written positionally: that of 1e-4. -/
def leastPositionalSize : Int := -3

/-- The greatest decimal size that is written positionally: that of the numbers just below 1e16. -/
def greatestPositionalSize : Int := 16

namespace Decimal

/-- Digits with the point put where it belongs. -/
def positional (d : Decimal) : List Char :=
  let ds := digits d.significand
  let k := d.size
  if 0 ≤ d.exponent then ds ++ List.replicate d.exponent.toNat '0' ++ ['.']
  else if 0 < k then ds.take k.toNat ++ '.' :: ds.drop k.toNat
  else '.' :: List.replicate (-k).toNat '0' ++ ds

/-- One digit before the point and an exponent. -/
def scientific (d : Decimal) : List Char :=
  let ds := digits d.significand
  ds.take 1 ++ '.' :: ds.drop 1 ++ 'e' :: intText (d.size - 1)

/-- The decimal as a real is written. -/
def realText (d : Decimal) : List Char :=
  if d.significand = 0 ∨ (leastPositionalSize ≤ d.size ∧ d.size ≤ greatestPositionalSize) then
    d.positional
  else d.scientific

end Decimal

namespace Binary64

/-- The text of a real. -/
def text (x : Binary64) : List Char :=
  if x.isNaN then "NaN".toList
  else
    let sign := if x.negative then ['-'] else []
    if x.isFinite then sign ++ x.shortest.realText else sign ++ "inf".toList

end Binary64

end LayoutLex
