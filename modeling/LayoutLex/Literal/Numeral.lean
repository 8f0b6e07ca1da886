import LayoutLex.Number.Nearest
import LayoutLex.Text.Digit

/-!
# Numerals

The written form of numbers: a sign, digits, a point with digits, an exponent.

* `Numeral.read?` takes a text apart. Digits are those of any script, a numeral without point and
  exponent has at least one of them, and so has an exponent; on either side of a point there may
  be none.
* `Numeral.integer?` and `Numeral.real?` evaluate. Only ASCII digits have values, so a numeral with
  others has none, save that a real with no ASCII digit before its exponent is a signed zero.

Results:
* `wellFormed_of_read?`: what is read has digits where digits must be.
-/

namespace LayoutLex

/-- A numeral, taken apart. -/
structure Numeral where
  /-- The numeral starts with a minus sign. -/
  negative : Bool
  /-- The digits before the point. -/
  whole : List Char
  /-- The digits after the point, if there is a point. -/
  places? : Option (List Char)
  /-- The sign and digits of the exponent, if there is one. -/
  exponent? : Option (Bool × List Char)
  deriving DecidableEq, Repr

namespace Numeral

/-- A minus sign at the start, and the text after it. -/
def sign : List Char → Bool × List Char
  | '-' :: rest => (true, rest)
  | cs => (false, cs)

/-- The letters that start an exponent. -/
def isExponentMark (c : Char) : Bool :=
  c == 'e' || c == 'E'

/-- An exponent that takes up the whole text; empty text is no exponent. -/
def readExponent? : List Char → Option (Option (Bool × List Char))
  | [] => some none
  | c :: rest =>
    let (negative, ds) := sign rest
    if isExponentMark c && !ds.isEmpty && ds.all Text.isDecimalDigit then some (some (negative, ds))
    else none

/-- The digits after a point, if the text starts with one, and the text after them. -/
def readPlaces : List Char → Option (List Char) × List Char
  | '.' :: rest => (some (rest.takeWhile Text.isDecimalDigit), rest.dropWhile Text.isDecimalDigit)
  | cs => (none, cs)

/-- The parts of a text that is a numeral as a whole. -/
def read? (cs : List Char) : Option Numeral :=
  let (negative, unsigned) := sign cs
  let whole := unsigned.takeWhile Text.isDecimalDigit
  let (places?, tail) := readPlaces (unsigned.dropWhile Text.isDecimalDigit)
  if whole.isEmpty && places?.isNone then none
  else (readExponent? tail).map fun exponent? => ⟨negative, whole, places?, exponent?⟩

/-- There is a digit or a point, and a digit in the exponent. -/
def WellFormed (n : Numeral) : Prop :=
  (n.whole ≠ [] ∨ n.places?.isSome) ∧ ∀ e ∈ n.exponent?, e.2 ≠ []

theorem wellFormed_of_read? {cs : List Char} {n : Numeral} (h : read? cs = some n) :
    n.WellFormed := by
  simp only [read?] at h
  split at h
  · cases h
  · next hw =>
    obtain ⟨e?, he, rfl⟩ := Option.map_eq_some_iff.mp h
    refine ⟨?_, fun e hmem => ?_⟩
    · by_cases hwhole : (List.takeWhile Text.isDecimalDigit (sign cs).2) = []
      · right
        simp only [hwhole] at hw
        cases hp : (readPlaces (List.dropWhile Text.isDecimalDigit (sign cs).2)).1 with
        | none => simp [hp] at hw
        | some _ => simp
      · exact Or.inl hwhole
    · simp only at hmem
      generalize (readPlaces (List.dropWhile Text.isDecimalDigit (sign cs).2)).2 = tail at he
      cases tail with
      | nil => simp only [readExponent?] at he; cases he; cases hmem
      | cons c rest =>
        simp only [readExponent?] at he
        split at he
        · next hc =>
          cases he
          cases hmem
          simp only [Bool.and_eq_true, Bool.not_eq_true', List.isEmpty_eq_false_iff] at hc
          exact hc.1.2
        · cases he

/-! ## Evaluation -/

/-- The digits on both sides of the point. -/
def mantissa (n : Numeral) : List Char :=
  n.whole ++ n.places?.getD []

/-- The number with the sign. -/
def signed (negative : Bool) (magnitude : Nat) : Int :=
  if negative then -(magnitude : Int) else magnitude

/-- The integer of 64 bits that a numeral without point and exponent denotes. -/
def integer? (n : Numeral) : Option Int64 :=
  let value := signed n.negative (digitsValue n.whole)
  if n.whole.all Char.isDigit && Int64.minValue.toInt ≤ value && value ≤ Int64.maxValue.toInt then
    some (Int64.ofInt value)
  else none

/-- The decimal that a numeral in ASCII digits denotes, without its sign. -/
def decimal (n : Numeral) : Decimal :=
  let (negative, ds) := n.exponent?.getD (false, [])
  ⟨digitsValue n.mantissa, signed negative (digitsValue ds) - (n.places?.getD []).length⟩

/-- The finite real that a numeral denotes. -/
def real? (n : Numeral) : Option Binary64 :=
  let exponentDigits := (n.exponent?.map Prod.snd).getD []
  if n.mantissa.any Char.isDigit then
    if n.mantissa.all Char.isDigit && exponentDigits.all Char.isDigit then
      let x := n.decimal.nearest n.negative
      if x.isFinite then some x else none
    else none
  else some (.zero n.negative)

end Numeral

end LayoutLex
