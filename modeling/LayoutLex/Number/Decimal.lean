/-!
# Decimals

A decimal is a whole number of steps of a power of ten. This module reads and writes the digits
of its significand.

* `Decimal.size` is the power of ten just above the decimal, so that a decimal with digits `d…`
  and size `k` is `0.d… · 10^k`.
* `Decimal.trimmed` moves the zeros at the end of the significand into the exponent.
-/

namespace LayoutLex

/-- The number of decimal digits; zero has one. -/
def digitCount (n : Nat) : Nat :=
  if n < 10 then 1 else digitCount (n / 10) + 1
termination_by n

/-- The decimal digits, the highest first. -/
def digits (n : Nat) : List Char :=
  if n < 10 then [Char.ofNat (0x30 + n)]
  else digits (n / 10) ++ [Char.ofNat (0x30 + n % 10)]
termination_by n

/-- The number that ASCII digits denote, the highest first. -/
def digitsValue (cs : List Char) : Nat :=
  cs.foldl (fun n c => 10 * n + (c.toNat - 0x30)) 0

/-- The text of a whole number. -/
def intText (n : Int) : List Char :=
  if n < 0 then '-' :: digits n.natAbs else digits n.natAbs

/-- There is one character to each digit. -/
theorem length_digits (n : Nat) : (digits n).length = digitCount n := by
  fun_induction digits n with
  | case1 n h => rw [digitCount, if_pos h]; rfl
  | case2 n h ih => rw [digitCount, if_neg h, List.length_append, ih]; rfl

/-- The number `significand · 10^exponent`. -/
structure Decimal where
  significand : Nat
  exponent : Int
  deriving DecidableEq, Repr, Inhabited

namespace Decimal

/-- The power of ten just above a decimal that is not zero. -/
def size (d : Decimal) : Int :=
  digitCount d.significand + d.exponent

/-- The same number without zeros at the end of the significand. -/
def trimmed (d : Decimal) : Decimal :=
  if d.significand ≠ 0 ∧ d.significand % 10 = 0 then
    trimmed ⟨d.significand / 10, d.exponent + 1⟩
  else d
termination_by d.significand
decreasing_by omega

end Decimal

end LayoutLex
