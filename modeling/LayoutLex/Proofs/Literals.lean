import LayoutLex.Proofs.Number.Nearest
import LayoutLex.Proofs.Number.Written
import LayoutLex.Value.Canonical

/-!
# What literals denote

A word is a literal if it is one of the two logical constants or a numeral in ASCII digits: an
integer of 64 bits, or a number with a point or an exponent whose nearest real is finite
(`Denotes`). Digits of other scripts stand in numerals but have no values. They are refused, except
where a numeral with a point or an exponent has no ASCII digit before its exponent: that one is read
as a zero, as if it had no digit there at all (`ReadAsZero`).

* `Numeral.magnitude` is the number that a numeral in ASCII digits is written for.
* `Numeral.IsReal` tells the numerals of reals from those of integers.

Results:
* `integer?_eq_some_iff`, `real?_eq_some_iff`: what a numeral evaluates to.
* `cases_of_read?`: a literal is an integer, a finite real or a logical value.
* `read?_iff_denotes`: which words are literals, and of which values.
* `read?_text_of_read?`: what is read is written and read again without a change.
-/

namespace LayoutLex

open Text Binary64

namespace Numeral

variable {n : Numeral}

/-! ## The number that is written -/

/-- The power of ten in the exponent. -/
def power (n : Numeral) : Int :=
  match n.exponent? with
  | none => 0
  | some (negative, ds) => signed negative (digitsValue ds)

/-- The number that is written, without its sign: each digit after the point counts a tenth of the
one before. -/
def magnitude (n : Numeral) : ℚ :=
  let places := n.places?.getD []
  (digitsValue n.whole + digitsValue places / 10 ^ places.length) * 10 ^ n.power

theorem value_decimal (n : Numeral) : n.decimal.value = n.magnitude := by
  have hexponent : n.decimal.exponent = n.power - (n.places?.getD []).length := by
    unfold decimal power
    cases n.exponent? with
    | none => rfl
    | some e => rfl
  have hsignificand : n.decimal.significand =
      digitsValue n.whole * 10 ^ (n.places?.getD []).length + digitsValue (n.places?.getD []) :=
    digitsValue_append n.whole (n.places?.getD [])
  rw [Decimal.value, hexponent, hsignificand, magnitude, zpow_sub₀ (by norm_num), zpow_natCast]
  push_cast
  field_simp

/-- The numeral has a point or an exponent. -/
def IsReal (n : Numeral) : Prop :=
  n.places?.isSome ∨ n.exponent?.isSome

theorem ofNumeral_of_isReal (h : n.IsReal) :
    Literal.Form.ofNumeral n = .float ∨ Literal.Form.ofNumeral n = .real := by
  unfold Literal.Form.ofNumeral
  split
  · exact Or.inl rfl
  · next hexponent => exact Or.inr (if_pos (h.resolve_right hexponent))

theorem ofNumeral_of_not_isReal (h : ¬ n.IsReal) : Literal.Form.ofNumeral n = .integer := by
  obtain ⟨hplaces, hexponent⟩ := not_or.mp h
  rw [Literal.Form.ofNumeral, if_neg hexponent, if_neg hplaces]

/-- The numeral of an integer is its sign and its digits. -/
theorem written_of_not_isReal (h : ¬ n.IsReal) (mark : Char) :
    n.written mark = signText n.negative ++ n.whole := by
  obtain ⟨hplaces, hexponent⟩ := not_or.mp h
  rw [Option.not_isSome_iff_eq_none] at hplaces hexponent
  rw [written, hplaces, hexponent, placesText, exponentWith, List.append_nil, List.append_nil]

theorem WellFormed.whole_ne_nil (hwellFormed : n.WellFormed) (h : ¬ n.IsReal) : n.whole ≠ [] :=
  hwellFormed.1.resolve_right fun hplaces => h (Or.inl hplaces)

theorem read?_signText (negative : Bool) {ds : List Char} (hne : ds ≠ [])
    (hdigits : ∀ c ∈ ds, c.isDigit = true) :
    read? (signText negative ++ ds) = some ⟨negative, ds, none, none⟩ := by
  have hspelled : (⟨negative, ds, none, none⟩ : Numeral).Spelled Char.isDigit := by
    refine ⟨⟨Or.inl hne, fun e he => by cases he⟩, fun c hc => ?_, fun e he => by cases he⟩
    rw [mantissa, Option.getD_none, List.append_nil] at hc
    exact hdigits c hc
  have hmark : isExponentMark 'e' = true := rfl
  have hread := read?_written hspelled.ofAscii hmark
  rwa [written_of_not_isReal (by simp [IsReal])] at hread

/-! ## What a numeral evaluates to -/

theorem integer?_eq_some_iff {k : Int64} : n.integer? = some k ↔
    (∀ c ∈ n.whole, c.isDigit = true) ∧ k.toInt = signed n.negative (digitsValue n.whole) := by
  simp only [integer?, Bool.and_eq_true, decide_eq_true_eq, List.all_eq_true]
  constructor
  · intro h
    split at h
    · next hfits =>
      cases h
      obtain ⟨⟨hdigits, hleast⟩, hgreatest⟩ := hfits
      rw [Int64.toInt_minValue] at hleast
      rw [Int64.toInt_maxValue] at hgreatest
      exact ⟨hdigits, Int64.toInt_ofInt_of_le hleast (by omega)⟩
    · cases h
  · rintro ⟨hdigits, hvalue⟩
    rw [← hvalue, if_pos ⟨⟨hdigits, k.minValue_le_toInt⟩, k.toInt_le⟩, Int64.ofInt_toInt]

/-- A numeral in ASCII digits denotes the nearest real, if that is finite. -/
theorem real?_eq_some_iff_of_spelled (h : n.Spelled Char.isDigit) {x : Binary64} :
    n.real? = some x ↔
      x.isFinite = true ∧ x.negative = n.negative ∧ Nearest x.place n.magnitude := by
  rw [real?_of_spelled h, ← value_decimal]
  constructor
  · intro hread
    split at hread
    · next hfinite =>
      have hx := Option.some.inj hread
      rw [hx] at hfinite
      exact ⟨hfinite, (Decimal.nearest_eq_iff hfinite).mp hx⟩
    · cases hread
  · rintro ⟨hfinite, hnearest⟩
    rw [(Decimal.nearest_eq_iff hfinite).mpr hnearest, if_pos hfinite]

/-- A numeral with other digits is a zero or nothing. -/
theorem real?_eq_some_iff_of_not_spelled (hwellFormed : n.WellFormed)
    (h : ¬ n.Spelled Char.isDigit) {x : Binary64} :
    n.real? = some x ↔ (∀ c ∈ n.mantissa, c.isDigit = false) ∧ x = .zero n.negative := by
  unfold real?
  split
  · next hany =>
    -- A digit that is not ASCII stands after an ASCII one, or in the exponent.
    obtain ⟨c, hc, hdigit⟩ := List.any_eq_true.mp hany
    have hrefused : (n.mantissa.all Char.isDigit &&
        ((n.exponent?.map Prod.snd).getD []).all Char.isDigit) = false := by
      rw [Bool.eq_false_iff, ne_eq, Bool.and_eq_true, List.all_eq_true, List.all_eq_true]
      rintro ⟨hmantissa, hexponent⟩
      refine h ⟨hwellFormed, hmantissa, fun e he c hc => hexponent c ?_⟩
      rw [Option.mem_def.mp he]
      exact hc
    simp only [hrefused, if_neg Bool.false_ne_true]
    constructor
    · intro hread
      cases hread
    · rintro ⟨hnone, -⟩
      rw [hnone c hc] at hdigit
      cases hdigit
  · next hany =>
    have hnone : ∀ c ∈ n.mantissa, c.isDigit = false := fun c hc =>
      Bool.eq_false_iff.mpr fun hdigit => hany (List.any_eq_true.mpr ⟨c, hc, hdigit⟩)
    constructor
    · intro hread
      exact ⟨hnone, (Option.some.inj hread).symm⟩
    · rintro ⟨-, rfl⟩
      rfl

theorem isFinite_of_real? {x : Binary64} (h : n.real? = some x) : x.isFinite = true := by
  simp only [real?] at h
  split at h
  · split at h
    · split at h
      · next hfinite =>
        cases h
        exact hfinite
      · cases h
    · cases h
  · cases h
    rfl

end Numeral

namespace Literal

/-! ## How a word is read -/

variable {word : List Char} {v : Value}

/-- A numeral is read as an integer if it has neither point nor exponent, else as a real. -/
theorem read?_numeral_iff {n : Numeral} (h : Numeral.read? word = some n) :
    read? word = some v ↔ (¬ n.IsReal ∧ ∃ k, n.integer? = some k ∧ v = .integer k) ∨
      (n.IsReal ∧ ∃ x, n.real? = some x ∧ v = .real x) := by
  rw [read?_of_read? h]
  by_cases hreal : n.IsReal
  · have hvalue : (Form.ofNumeral n).value? word = n.real?.map .real := by
      rcases Numeral.ofNumeral_of_isReal hreal with hform | hform
      · rw [hform, Form.value?, h, Option.bind_some]
      · rw [hform, Form.value?, h, Option.bind_some]
    rw [hvalue, Option.map_eq_some_iff]
    simp only [hreal, not_true, false_and, true_and, false_or, eq_comm]
  · rw [Numeral.ofNumeral_of_not_isReal hreal, Form.value?, h, Option.bind_some,
      Option.map_eq_some_iff]
    simp only [hreal, not_false_eq_true, false_and, true_and, or_false, eq_comm]

theorem accepts_logical_iff : Form.logical.accepts word = true ↔
    word = "1".toList ∨ word = "0".toList ∨ word = "TRUE".toList ∨ word = "FALSE".toList := by
  simp only [Form.accepts, List.any_cons, List.any_nil, Bool.or_false, Bool.or_eq_true, beq_iff_eq,
    @eq_comm _ _ word]

/-- Besides the numerals only the two logical constants are literals. -/
theorem read?_word_iff (h : Numeral.read? word = none) :
    read? word = some v ↔ (word = "TRUE".toList ∧ v = .logical true) ∨
      (word = "FALSE".toList ∧ v = .logical false) := by
  have hread : read? word =
      if Form.logical.accepts word then Form.logical.value? word else none := by
    have hother : ∀ form ≠ Form.logical, form.accepts word = false := by
      intro form hform
      cases form with
      | logical => exact absurd rfl hform
      | _ => simp only [Form.accepts, h, Option.map_none, Option.none_beq_some]
    rw [read?, Form.all]
    simp only [List.find?_cons, List.find?_nil, hother .float (by decide),
      hother .real (by decide), hother .integer (by decide)]
    cases Form.logical.accepts word with
    | false => rfl
    | true => rfl
  constructor
  · intro hv
    rw [hread] at hv
    split at hv
    · next haccepts =>
      rcases accepts_logical_iff.mp haccepts with rfl | rfl | rfl | rfl
      · cases h
      · cases h
      · cases hv
        exact Or.inl ⟨rfl, rfl⟩
      · cases hv
        exact Or.inr ⟨rfl, rfl⟩
    · cases hv
  · rintro (⟨rfl, rfl⟩ | ⟨rfl, rfl⟩)
    · rfl
    · rfl

/-- **A literal is an integer, a finite real or a logical value.** -/
theorem cases_of_read? (h : read? word = some v) :
    (∃ k, v = .integer k) ∨ (∃ x : Binary64, x.isFinite = true ∧ v = .real x) ∨
      ∃ truth, v = .logical truth := by
  cases hn : Numeral.read? word with
  | none =>
    rcases (read?_word_iff hn).mp h with ⟨-, rfl⟩ | ⟨-, rfl⟩
    · exact Or.inr (Or.inr ⟨true, rfl⟩)
    · exact Or.inr (Or.inr ⟨false, rfl⟩)
  | some n =>
    rcases (read?_numeral_iff hn).mp h with ⟨-, k, -, rfl⟩ | ⟨-, x, hx, rfl⟩
    · exact Or.inl ⟨k, rfl⟩
    · exact Or.inr (Or.inl ⟨x, Numeral.isFinite_of_real? hx, rfl⟩)

/-! ## What is written reads back -/

/-- A logical value has the text of an integer. -/
theorem exists_text_logical (truth : Bool) :
    ∃ k, (Value.logical truth).text = (Value.integer k).text := by
  cases truth with
  | true => exact ⟨1, by decide +kernel⟩
  | false => exact ⟨0, by decide +kernel⟩

/-- **Numbers survive writing and reading**, reals to the last bit and never as integers. So a value
that was read is read again from its own text, only that a logical value becomes the integer that
its text is; and what is read again has the same text. -/
theorem read?_text_of_read? :
    (∀ k : Int64, read? (Value.integer k).text = some (.integer k)) ∧
      (∀ x : Binary64, x.isFinite = true → read? x.text = some (.real x)) ∧
      ∀ word v, read? word = some v → ∃ w, read? v.text = some w ∧ w.text = v.text ∧
        (v.kind ≠ .logical → w = v) := by
  refine ⟨literal_intText, fun x => literal_text, fun word v hv => ?_⟩
  rcases cases_of_read? hv with ⟨k, rfl⟩ | ⟨x, hfinite, rfl⟩ | ⟨truth, rfl⟩
  · exact ⟨.integer k, literal_intText k, rfl, fun _ => rfl⟩
  · exact ⟨.real x, literal_text hfinite, rfl, fun _ => rfl⟩
  · obtain ⟨k, hk⟩ := exists_text_logical truth
    refine ⟨.integer k, ?_, hk.symm, fun hkind => absurd rfl hkind⟩
    rw [hk]
    exact literal_intText k

theorem read?_text_of_read?_zero :
    let small := Binary64.ofBits 0xBE7AD7F29ABCAF48
    let zero := Binary64.zero true
    small.isFinite = true ∧ small.text = "-1.e-7".toList ∧ zero.text = "-0.".toList ∧
      read? small.text = some (.real small) ∧ read? zero.text = some (.real zero) ∧
      read? "TRUE".toList = some (.logical true) ∧
      ∃ w, read? (Value.logical true).text = some w ∧ w.text = (Value.logical true).text := by
  intro small zero
  obtain ⟨-, hreal, hvalue⟩ := read?_text_of_read?
  have hsmall : small.isFinite = true := by decide
  obtain ⟨w, hw, htext, -⟩ := hvalue "TRUE".toList (.logical true) rfl
  exact ⟨hsmall, by decide +kernel, by decide +kernel, hreal small hsmall, hreal zero rfl, rfl, w,
    hw, htext⟩

/-! ## Which words are literals -/

/-- The word is written for the value. -/
inductive Denotes : List Char → Value → Prop
  | truth : Denotes "TRUE".toList (.logical true)
  | falsity : Denotes "FALSE".toList (.logical false)
  /-- A sign and digits, for an integer of 64 bits. -/
  | integer {negative : Bool} {ds : List Char} {k : Int64} (hne : ds ≠ [])
      (hdigits : ∀ c ∈ ds, c.isDigit = true)
      (hvalue : k.toInt = Numeral.signed negative (digitsValue ds)) :
      Denotes (Numeral.signText negative ++ ds) (.integer k)
  /-- A numeral with a point or an exponent, for the nearest real if that is finite. -/
  | real {n : Numeral} {mark : Char} {x : Binary64} (hspelled : n.Spelled Char.isDigit)
      (hmark : Numeral.isExponentMark mark = true) (hreal : n.IsReal)
      (hfinite : x.isFinite = true) (hsign : x.negative = n.negative)
      (hnearest : Nearest x.place n.magnitude) :
      Denotes (n.written mark) (.real x)

/-- The word is a numeral with a point or an exponent, in which a digit of another script stands but
no ASCII digit before the exponent, and the value is the zero with its sign. -/
inductive ReadAsZero : List Char → Value → Prop
  | intro {n : Numeral} {mark : Char} (hspelled : n.Spelled isDecimalDigit)
      (hmark : Numeral.isExponentMark mark = true) (hreal : n.IsReal)
      (hother : ¬ n.Spelled Char.isDigit) (hmantissa : ∀ c ∈ n.mantissa, c.isDigit = false) :
      ReadAsZero (n.written mark) (.real (.zero n.negative))

/-- What is written for a value is read as the value. -/
theorem read?_of_denotes (h : Denotes word v) : read? word = some v := by
  cases h with
  | truth => rfl
  | falsity => rfl
  | @integer negative ds k hne hdigits hvalue =>
    have hn := Numeral.read?_signText negative hne hdigits
    refine (read?_numeral_iff hn).mpr (Or.inl ⟨?_, k, ?_, rfl⟩)
    · simp [Numeral.IsReal]
    · exact Numeral.integer?_eq_some_iff.mpr ⟨hdigits, hvalue⟩
  | real hspelled hmark hreal hfinite hsign hnearest =>
    have hn := Numeral.read?_written hspelled.ofAscii hmark
    refine (read?_numeral_iff hn).mpr (Or.inr ⟨hreal, _, ?_, rfl⟩)
    exact (Numeral.real?_eq_some_iff_of_spelled hspelled).mpr ⟨hfinite, hsign, hnearest⟩

theorem read?_of_readAsZero (h : ReadAsZero word v) : read? word = some v := by
  cases h with
  | intro hspelled hmark hreal hother hmantissa =>
    have hn := Numeral.read?_written hspelled hmark
    refine (read?_numeral_iff hn).mpr (Or.inr ⟨hreal, _, ?_, rfl⟩)
    exact (Numeral.real?_eq_some_iff_of_not_spelled hspelled.wellFormed hother).mpr
      ⟨hmantissa, rfl⟩

/-- Nothing else is read. -/
theorem denotes_or_readAsZero (h : read? word = some v) : Denotes word v ∨ ReadAsZero word v := by
  cases hn : Numeral.read? word with
  | none =>
    rcases (read?_word_iff hn).mp h with ⟨rfl, rfl⟩ | ⟨rfl, rfl⟩
    · exact Or.inl .truth
    · exact Or.inl .falsity
  | some n =>
    obtain ⟨hspelled, mark, hmark, rfl⟩ := Numeral.read?_eq_some_iff.mp hn
    rcases (read?_numeral_iff hn).mp h with ⟨hreal, k, hk, rfl⟩ | ⟨hreal, x, hx, rfl⟩
    · obtain ⟨hdigits, hvalue⟩ := Numeral.integer?_eq_some_iff.mp hk
      rw [Numeral.written_of_not_isReal hreal]
      exact Or.inl (.integer (hspelled.wellFormed.whole_ne_nil hreal) hdigits hvalue)
    · by_cases hascii : n.Spelled Char.isDigit
      · obtain ⟨hfinite, hsign, hnearest⟩ := (Numeral.real?_eq_some_iff_of_spelled hascii).mp hx
        exact Or.inl (.real hascii hmark hreal hfinite hsign hnearest)
      · obtain ⟨hmantissa, rfl⟩ :=
          (Numeral.real?_eq_some_iff_of_not_spelled hspelled.wellFormed hascii).mp hx
        exact Or.inr (.intro hspelled hmark hreal hascii hmantissa)

/-- **A word is read as a value exactly if it is written for it**, apart from the numerals with
digits of other scripts that are read as zeros. -/
theorem read?_iff_denotes (word : List Char) (v : Value) :
    read? word = some v ↔ Denotes word v ∨ ReadAsZero word v := by
  refine ⟨denotes_or_readAsZero, ?_⟩
  rintro (hdenotes | hzero)
  · exact read?_of_denotes hdenotes
  · exact read?_of_readAsZero hzero

/-- An Arabic digit three before a point is read as a zero, though no word with a digit of another
script is written for a value. -/
theorem not_read?_iff_denotes : ¬ ∀ word v, read? word = some v ↔ Denotes word v := by
  intro hall
  have hn : Numeral.read? ['\u0663', '.'] = some ⟨false, ['\u0663'], some [], none⟩ := by decide
  have hread : read? ['\u0663', '.'] = some (.real (.zero false)) :=
    (read?_numeral_iff hn).mpr (Or.inr ⟨Or.inl rfl, _, rfl, rfl⟩)
  have hdenotes := (hall _ _).mp hread
  generalize hword : ['\u0663', '.'] = word at hn hdenotes
  cases hdenotes with
  | real hspelled hmark =>
    rw [Numeral.read?_written hspelled.ofAscii hmark] at hn
    cases hn
    have hdigit := hspelled.mantissa '\u0663' (by decide)
    revert hdigit
    decide

end Literal

end LayoutLex
