import LayoutLex.Number.RealText
import LayoutLex.Proofs.Number.Numeral

/-!
# Numbers read back

Integers and finite reals are written as plain numerals. The numeral of an integer has its digits,
the numeral of a real those of its shortest decimal with the point and the exponent where the
decimal has them, so that it denotes the same number and is read as the real.

Results:
* `literal_intText`: the text of an integer denotes the integer.
* `literal_text`: the text of a finite real denotes the real, with its sign and to the last bit.
-/

namespace LayoutLex

open Numeral

/-! ## Integers -/

theorem signed_natAbs (i : Int) : signed (decide (i < 0)) i.natAbs = i := by
  unfold signed
  split
  · next h =>
    have := of_decide_eq_true h
    omega
  · next h =>
    rw [decide_eq_true_eq] at h
    omega

/-- An integer as a numeral. -/
def Numeral.ofInt (i : Int) : Numeral :=
  ⟨decide (i < 0), digits i.natAbs, none, none⟩

theorem intText_eq (i : Int) : intText i = signText (decide (i < 0)) ++ digits i.natAbs := by
  unfold intText signText
  by_cases h : i < 0
  · simp [h]
  · simp [h]

theorem text_ofInt (i : Int) : (Numeral.ofInt i).text = intText i := by
  rw [intText_eq, text, ofInt, placesText, exponentText, List.append_nil, List.append_nil]

theorem plain_ofInt (i : Int) : (Numeral.ofInt i).Plain where
  mantissa_ne_nil := by
    rw [mantissa, ofInt, Option.getD_none, List.append_nil]
    exact digits_ne_nil _
  isDigit_mantissa := by
    intro c hc
    rw [mantissa, ofInt, Option.getD_none, List.append_nil] at hc
    exact isDigit_of_mem_digits hc
  exponent_ne_nil := fun e he => by cases he
  isDigit_exponent := fun e he => by cases he

/-- **The text of an integer denotes the integer.** -/
theorem literal_intText (n : Int64) : Literal.read? (intText n.toInt) = some (.integer n) := by
  have hread := read?_text (plain_ofInt n.toInt)
  have hdigits : (digits n.toInt.natAbs).all Char.isDigit = true :=
    List.all_eq_true.mpr fun c hc => isDigit_of_mem_digits hc
  have hinteger : (Numeral.ofInt n.toInt).integer? = some n := by
    simp only [integer?, ofInt, digitsValue_digits, signed_natAbs, hdigits, n.minValue_le_toInt,
      n.toInt_le, decide_true, Bool.and_self, if_true, Int64.ofInt_toInt]
  have hform : Literal.Form.ofNumeral (Numeral.ofInt n.toInt) = .integer := rfl
  rw [← text_ofInt, Literal.read?_of_read? hread, hform, Literal.Form.value?, hread,
    Option.bind_some, hinteger]
  rfl

/-! ## Reals -/

namespace Decimal

/-- A decimal as the numeral that is written for it. -/
def numeral (negative : Bool) (d : Decimal) : Numeral :=
  let ds := digits d.significand
  let k := d.size
  if d.significand = 0 ∨ (leastPositionalSize ≤ k ∧ k ≤ greatestPositionalSize) then
    if 0 ≤ d.exponent then ⟨negative, ds ++ List.replicate d.exponent.toNat '0', some [], none⟩
    else if 0 < k then ⟨negative, ds.take k.toNat, some (ds.drop k.toNat), none⟩
    else ⟨negative, [], some (List.replicate (-k).toNat '0' ++ ds), none⟩
  else
    ⟨negative, ds.take 1, some (ds.drop 1), some (decide (k - 1 < 0), digits (k - 1).natAbs)⟩

theorem text_numeral (negative : Bool) (d : Decimal) :
    (d.numeral negative).text = signText negative ++ d.realText := by
  unfold numeral realText positional scientific
  dsimp only
  split
  · split
    · simp [text, placesText, exponentText]
    · split
      · simp [text, placesText, exponentText]
      · simp [text, placesText, exponentText]
  · simp [text, placesText, exponentText, intText_eq]

/-- The numeral has the sign and a point; an exponent is a whole number. -/
theorem shape_numeral (negative : Bool) (d : Decimal) :
    (d.numeral negative).negative = negative ∧ (d.numeral negative).places?.isSome = true ∧
      ∀ e ∈ (d.numeral negative).exponent?, ∃ n, e.2 = digits n := by
  unfold numeral
  dsimp only
  split
  · split
    · exact ⟨rfl, rfl, fun e he => by cases he⟩
    · split
      · exact ⟨rfl, rfl, fun e he => by cases he⟩
      · exact ⟨rfl, rfl, fun e he => by cases he⟩
  · refine ⟨rfl, rfl, fun e he => ?_⟩
    cases he
    exact ⟨_, rfl⟩

/-- The numeral has the digits of the decimal with zeros on either side, and the zeros behind are
taken off its exponent. -/
theorem exists_zeros_numeral (negative : Bool) (d : Decimal) :
    ∃ a b, (d.numeral negative).mantissa =
        List.replicate a '0' ++ digits d.significand ++ List.replicate b '0' ∧
      (d.numeral negative).decimal.exponent = d.exponent - b := by
  have hlength := length_digits d.significand
  have hpos := digitCount_pos d.significand
  have hsize : d.size = digitCount d.significand + d.exponent := rfl
  unfold numeral
  dsimp only
  split
  · split
    · refine ⟨0, d.exponent.toNat, by simp [mantissa], ?_⟩
      simp [Numeral.decimal, signed, digitsValue]
      omega
    · split
      · refine ⟨0, 0, by simp [mantissa], ?_⟩
        simp [Numeral.decimal, signed, digitsValue]
        omega
      · refine ⟨(-d.size).toNat, 0, by simp [mantissa], ?_⟩
        simp [Numeral.decimal, signed, digitsValue]
        omega
  · refine ⟨0, 0, ?_, ?_⟩
    · rw [mantissa, Option.getD_some, List.take_append_drop]
      simp
    · simp only [Numeral.decimal, Option.getD_some, digitsValue_digits, signed_natAbs,
        List.length_drop]
      omega

theorem plain_numeral (negative : Bool) (d : Decimal) : (d.numeral negative).Plain := by
  obtain ⟨a, b, hmantissa, -⟩ := exists_zeros_numeral negative d
  obtain ⟨-, -, hexponent⟩ := shape_numeral negative d
  refine ⟨?_, ?_, ?_, ?_⟩
  · rw [hmantissa]
    simp [digits_ne_nil]
  · intro c hc
    rw [hmantissa, List.mem_append, List.mem_append] at hc
    rcases hc with (hc | hc) | hc
    · exact isDigit_of_mem_zeros hc
    · exact isDigit_of_mem_digits hc
    · exact isDigit_of_mem_zeros hc
  · intro e he
    obtain ⟨n, hn⟩ := hexponent e he
    rw [hn]
    exact digits_ne_nil n
  · intro e he c hc
    obtain ⟨n, hn⟩ := hexponent e he
    rw [hn] at hc
    exact isDigit_of_mem_digits hc

/-- The numeral of a decimal denotes the same number. -/
theorem value_numeral (negative : Bool) (d : Decimal) :
    (d.numeral negative).decimal.value = d.value := by
  obtain ⟨a, b, hmantissa, hexponent⟩ := exists_zeros_numeral negative d
  have hsignificand : (d.numeral negative).decimal.significand = d.significand * 10 ^ b := by
    simp only [Numeral.decimal]
    rw [hmantissa, digitsValue_append, digitsValue_append, digitsValue_zeros, digitsValue_zeros,
      digitsValue_digits, List.length_replicate, Nat.zero_mul, Nat.zero_add, Nat.add_zero]
  rw [value, value, hsignificand, hexponent, Nat.cast_mul, Nat.cast_pow, Nat.cast_ofNat, mul_assoc,
    ← zpow_natCast, ← zpow_add₀ (by norm_num), add_sub_cancel]

end Decimal

theorem text_eq_numeral {x : Binary64} (hfinite : x.isFinite = true) :
    x.text = (x.shortest.numeral x.negative).text := by
  have hnumber : ¬ x.isNaN = true := by
    unfold Binary64.isFinite at hfinite
    unfold Binary64.isNaN
    rw [decide_eq_true_eq] at hfinite ⊢
    omega
  rw [Decimal.text_numeral, Binary64.text, if_neg hnumber, if_pos hfinite, signText]

/-- A numeral in ASCII digits denotes the number nearest to its decimal, if that is finite. Without
a digit before its exponent it is a zero by a rule of its own, but so is its decimal. -/
theorem real?_of_spelled {n : Numeral} (h : n.Spelled Char.isDigit) :
    n.real? =
      if (n.decimal.nearest n.negative).isFinite then some (n.decimal.nearest n.negative)
      else none := by
  have hall : n.mantissa.all Char.isDigit = true := List.all_eq_true.mpr h.mantissa
  have hexponent : ((n.exponent?.map Prod.snd).getD []).all Char.isDigit = true := by
    cases he : n.exponent? with
    | none => rfl
    | some e => exact List.all_eq_true.mpr (h.exponent e he)
  cases hmantissa : n.mantissa with
  | nil =>
    have hsignificand : n.decimal.significand = 0 := by
      rw [Numeral.decimal, hmantissa]
      rfl
    have hnear : Binary64.Near 0 n.decimal.halfUnits := by
      rw [Decimal.halfUnits_of_significand_eq_zero hsignificand]
      exact Binary64.near_zero
    have hzero : n.decimal.nearest n.negative = .zero n.negative :=
      Decimal.nearest_of_near (x := .zero n.negative) rfl hnear
    rw [hzero, real?, hmantissa]
    rfl
  | cons c cs =>
    have hany : n.mantissa.any Char.isDigit = true := by
      have hc : c ∈ n.mantissa := hmantissa ▸ List.mem_cons_self
      exact List.any_eq_true.mpr ⟨c, hc, h.mantissa c hc⟩
    simp only [real?, hany, hall, hexponent, Bool.and_self, if_true]

theorem real?_numeral {x : Binary64} (hfinite : x.isFinite = true) :
    (x.shortest.numeral x.negative).real? = some x := by
  obtain ⟨hnegative, -, -⟩ := x.shortest.shape_numeral x.negative
  have hnear := x.near_shortest
  rw [Decimal.halfUnits, ← x.shortest.value_numeral x.negative, ← Decimal.halfUnits] at hnear
  rw [real?_of_spelled (x.shortest.plain_numeral x.negative).spelled, hnegative,
    Decimal.nearest_of_near hfinite hnear, if_pos hfinite]

/-- **The text of a finite real denotes the real**, with its sign and to the last bit. -/
theorem literal_text {x : Binary64} (hfinite : x.isFinite = true) :
    Literal.read? x.text = some (.real x) := by
  have hread := read?_text (x.shortest.plain_numeral x.negative)
  obtain ⟨-, hplaces, -⟩ := x.shortest.shape_numeral x.negative
  rw [text_eq_numeral hfinite, Literal.read?_of_read? hread, Literal.Form.ofNumeral]
  split
  · rw [Literal.Form.value?, hread, Option.bind_some, real?_numeral hfinite]
    rfl
  · rw [Literal.Form.value?, hread, Option.bind_some, real?_numeral hfinite]
    rfl

end LayoutLex
