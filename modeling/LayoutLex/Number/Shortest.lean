import LayoutLex.Number.Binary64
import LayoutLex.Number.Decimal

/-!
# The shortest decimal of a number

`Binary64.shortest` gives, of the decimals that are nearer to a number than to any other number of
the format, one with the fewest digits, and of those the nearest to the number; of two equally
near ones the greater.

* A decimal belongs to a number when it lies between the middles of the number and its two
  neighbours. The middles themselves belong to the number with the even place.
* On each decimal grid only the two neighbours of the number can be the nearest decimal that
  belongs to it. The grids are tried from one digit on; seventeen digits always have a hit.
-/

namespace LayoutLex.Binary64

/-- The digits before the decimal point that any positive number of the format has after a shift
of the point by `decimalShift` places. -/
def decimalShift : Nat := 400

/-- The power of ten just above a number that is not zero. -/
def decimalSize (place : Nat) : Int :=
  (digitCount (unitsAt place * Nat.pow 10 decimalShift / Nat.pow 2 1074) : Int) - decimalShift

/-- A step of the grid of multiples of `10^exponent`, as a fraction of half units. -/
def gridStep (exponent : Int) : Nat × Nat :=
  (Nat.pow 10 exponent.toNat * Nat.pow 2 1075, Nat.pow 10 (-exponent).toNat)

/-- `num / den` half units lie between the middles of the place and its two neighbours. -/
def belongs (place : Nat) (num den : Nat) : Bool :=
  let low := (unitsAt (place - 1) + unitsAt place) * den
  let high := (unitsAt place + unitsAt (place + 1)) * den
  if place % 2 == 0 then low ≤ num && num ≤ high else low < num && num < high

/-- The nearest multiple of `10^exponent` that belongs to the place. -/
def onGrid? (place : Nat) (exponent : Int) : Option Decimal :=
  let (step, den) := gridStep exponent
  let value := 2 * unitsAt place * den
  let below := value / step
  let above := below + 1
  let hitBelow := belongs place (below * step) den
  let hitAbove := belongs place (above * step) den
  if hitAbove && (!hitBelow || above * step - value ≤ value - below * step) then
    some ⟨above, exponent⟩
  else if hitBelow then some ⟨below, exponent⟩
  else none

/-- The shortest decimal of the number at a place that is not zero. -/
def shortestAt (place : Nat) : Decimal :=
  let size := decimalSize place
  let found := (List.range 17).findSome? fun n => onGrid? place (size - (n + 1 : Nat))
  (found.getD ⟨unitsAt place, 0⟩).trimmed

/-- The shortest decimal of a finite number without its sign. -/
def shortest (x : Binary64) : Decimal :=
  if x.isZero then ⟨0, 0⟩ else shortestAt x.place

end LayoutLex.Binary64
