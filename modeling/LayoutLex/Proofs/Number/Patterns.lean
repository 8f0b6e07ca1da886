import LayoutLex.Proofs.Number.Numeral
import Mathlib.Computability.Language

/-!
# The patterns of literals

Each form of literal is a regular expression (`Form.pattern`), and a word has the form if the
expression matches it as a whole. Here the words that an expression matches are a language, built
from those of its parts as the expression is: `+` for a choice, `*` for what comes after another and
`∗` for what is repeated.

Results:
* `accepts_iff_mem_language`: the words of a form are those that its pattern matches.
* `isNumber_iff_mem_language`: the words that are numerals are those of the three patterns for
  numbers.
-/

/-! ## Classes of characters -/

namespace LayoutLex.Text

open scoped Computability

variable {word : List Char} {p q : Char → Prop}

/-- One character of a class. -/
def classLanguage (p : Char → Prop) : Language Char :=
  {word | ∃ c, p c ∧ word = [c]}

/-- What is repeated of a class of characters is any text of them. -/
theorem mem_kstar_class_iff : word ∈ (classLanguage p)∗ ↔ ∀ c ∈ word, p c := by
  rw [Language.mem_kstar]
  constructor
  · rintro ⟨parts, rfl, hparts⟩ c hc
    obtain ⟨part, hpart, hc⟩ := List.mem_flatten.mp hc
    obtain ⟨d, hd, rfl⟩ := hparts part hpart
    rwa [List.mem_singleton.mp hc]
  · intro h
    refine ⟨word.map fun c => [c], (List.flatMap_singleton' word).symm, fun part hpart => ?_⟩
    obtain ⟨c, hc, rfl⟩ := List.mem_map.mp hpart
    exact ⟨c, h c hc, rfl⟩

/-- One character of a class and then any of another. -/
theorem mem_class_mul_kstar_iff : word ∈ classLanguage p * (classLanguage q)∗ ↔
    ∃ c rest, word = c :: rest ∧ p c ∧ ∀ d ∈ rest, q d := by
  rw [Language.mem_mul]
  constructor
  · rintro ⟨_, ⟨c, hc, rfl⟩, rest, hrest, rfl⟩
    exact ⟨c, rest, rfl, hc, mem_kstar_class_iff.mp hrest⟩
  · rintro ⟨c, rest, rfl, hc, hrest⟩
    exact ⟨[c], ⟨c, hc, rfl⟩, rest, mem_kstar_class_iff.mpr hrest, rfl⟩

end LayoutLex.Text

namespace LayoutLex.Literal

open Text Numeral
open scoped Computability

/-! ## The languages -/

/-- One digit of any script, `\d`. -/
def digitLanguage : Language Char :=
  {word | ∃ c, isDecimalDigit c = true ∧ word = [c]}

/-- The sign that may be left out, `(-)?`. -/
def signLanguage : Language Char :=
  1 + {['-']}

/-- The language of `integerPattern`, `(-)?\d+`. -/
def integerLanguage : Language Char :=
  signLanguage * (digitLanguage * digitLanguage∗)

/-- The language of `realPattern`, `(-)?(\d+)*\.\d*`. -/
def realLanguage : Language Char :=
  signLanguage * ((digitLanguage * digitLanguage∗)∗ * ({['.']} * digitLanguage∗))

/-- The language of the pattern of the form. -/
def Form.language : Form → Language Char
  | float => (realLanguage + integerLanguage) * (({['e']} + {['E']}) * integerLanguage)
  | real => realLanguage
  | integer => integerLanguage
  | logical => {['1']} + {['0']} + {"TRUE".toList} + {"FALSE".toList}

variable {word : List Char}

theorem mem_digits_iff : word ∈ digitLanguage∗ ↔ ∀ c ∈ word, isDecimalDigit c = true :=
  mem_kstar_class_iff

theorem mem_digits_plus_iff : word ∈ digitLanguage * digitLanguage∗ ↔
    word ≠ [] ∧ ∀ c ∈ word, isDecimalDigit c = true := by
  refine mem_class_mul_kstar_iff.trans ⟨?_, ?_⟩
  · rintro ⟨c, rest, rfl, hdigits⟩
    exact ⟨List.cons_ne_nil c rest, List.forall_mem_cons.mpr hdigits⟩
  · rintro ⟨hne, hdigits⟩
    obtain ⟨c, rest, rfl⟩ := List.exists_cons_of_ne_nil hne
    exact ⟨c, rest, rfl, List.forall_mem_cons.mp hdigits⟩

/-- Runs of digits one after another are one run. -/
theorem kstar_digits_plus : (digitLanguage * digitLanguage∗)∗ = digitLanguage∗ := by
  refine le_antisymm ?_ (kstar_mono ?_)
  · exact (kstar_mono mul_kstar_le_kstar).trans_eq (kstar_idem digitLanguage)
  · rintro _ ⟨c, hc, rfl⟩
    exact mem_digits_plus_iff.mpr ⟨List.cons_ne_nil c [], by simpa using hc⟩

theorem mem_signLanguage_iff : word ∈ signLanguage ↔ ∃ negative, word = signText negative := by
  rw [signLanguage, Language.mem_add, Language.mem_one]
  constructor
  · rintro (rfl | rfl)
    · exact ⟨false, rfl⟩
    · exact ⟨true, rfl⟩
  · rintro ⟨negative, rfl⟩
    cases negative with
    | false => exact .inl rfl
    | true => exact .inr rfl

theorem mem_integerLanguage_iff : word ∈ integerLanguage ↔
    ∃ negative ds, ds ≠ [] ∧ (∀ c ∈ ds, isDecimalDigit c = true) ∧
      word = signText negative ++ ds := by
  rw [integerLanguage, Language.mem_mul]
  constructor
  · rintro ⟨sign, hsign, ds, hds, rfl⟩
    obtain ⟨negative, rfl⟩ := mem_signLanguage_iff.mp hsign
    obtain ⟨hne, hdigits⟩ := mem_digits_plus_iff.mp hds
    exact ⟨negative, ds, hne, hdigits, rfl⟩
  · rintro ⟨negative, ds, hne, hdigits, rfl⟩
    exact ⟨_, mem_signLanguage_iff.mpr ⟨negative, rfl⟩, ds,
      mem_digits_plus_iff.mpr ⟨hne, hdigits⟩, rfl⟩

theorem mem_realLanguage_iff : word ∈ realLanguage ↔
    ∃ negative whole places, (∀ c ∈ whole, isDecimalDigit c = true) ∧
      (∀ c ∈ places, isDecimalDigit c = true) ∧
      word = signText negative ++ (whole ++ '.' :: places) := by
  rw [realLanguage, kstar_digits_plus, Language.mem_mul]
  constructor
  · rintro ⟨sign, hsign, _, ⟨whole, hwhole, _, ⟨_, rfl, places, hplaces, rfl⟩, rfl⟩, rfl⟩
    obtain ⟨negative, rfl⟩ := mem_signLanguage_iff.mp hsign
    exact ⟨negative, whole, places, mem_digits_iff.mp hwhole, mem_digits_iff.mp hplaces, rfl⟩
  · rintro ⟨negative, whole, places, hwhole, hplaces, rfl⟩
    exact ⟨_, mem_signLanguage_iff.mpr ⟨negative, rfl⟩, _, ⟨whole, mem_digits_iff.mpr hwhole, _,
      ⟨['.'], rfl, places, mem_digits_iff.mpr hplaces, rfl⟩, rfl⟩, rfl⟩

/-! ## Numerals -/

variable {n : Numeral} {form : Form}

/-- The text of a numeral up to its exponent. -/
def unscaled (n : Numeral) : List Char :=
  signText n.negative ++ (n.whole ++ placesText n.places?)

theorem written_eq (n : Numeral) (mark : Char) :
    n.written mark = unscaled n ++ exponentWith mark n.exponent? := by
  simp only [written, unscaled, List.append_assoc]

/-- A number without an exponent is matched by the pattern that its point asks for. -/
theorem unscaled_mem (h : n.Spelled isDecimalDigit) :
    unscaled n ∈ if n.places?.isSome then realLanguage else integerLanguage := by
  unfold unscaled
  cases hplaces : n.places? with
  | none =>
    have hne : n.whole ≠ [] := h.wellFormed.1.resolve_right (by simp [hplaces])
    rw [placesText, List.append_nil]
    exact mem_integerLanguage_iff.mpr ⟨n.negative, n.whole, hne, h.whole, rfl⟩
  | some ds =>
    exact mem_realLanguage_iff.mpr ⟨n.negative, n.whole, ds, h.whole, h.places ds hplaces, rfl⟩

theorem exists_of_mem_realLanguage (h : word ∈ realLanguage) :
    ∃ n : Numeral, n.Spelled isDecimalDigit ∧ n.places?.isSome ∧ n.exponent? = none ∧
      word = unscaled n := by
  obtain ⟨negative, whole, places, hwhole, hplaces, rfl⟩ := mem_realLanguage_iff.mp h
  refine ⟨⟨negative, whole, some places, none⟩, ⟨⟨.inr rfl, ?_⟩, ?_, ?_⟩, rfl, rfl, rfl⟩
  · exact fun e he => by cases he
  · exact fun c hc => (List.mem_append.mp hc).elim (hwhole c) (hplaces c)
  · exact fun e he => by cases he

theorem exists_of_mem_integerLanguage (h : word ∈ integerLanguage) :
    ∃ n : Numeral, n.Spelled isDecimalDigit ∧ n.places? = none ∧ n.exponent? = none ∧
      word = unscaled n := by
  obtain ⟨negative, ds, hne, hdigits, rfl⟩ := mem_integerLanguage_iff.mp h
  refine ⟨⟨negative, ds, none, none⟩, ⟨⟨.inl hne, ?_⟩, ?_, ?_⟩, rfl, rfl, ?_⟩
  · exact fun e he => by cases he
  · exact fun c hc => hdigits c (by simpa [mantissa] using hc)
  · exact fun e he => by cases he
  · rw [unscaled, placesText, List.append_nil]

/-- A number is still spelled with an exponent of such digits. -/
theorem spelled_scaled (h : n.Spelled isDecimalDigit) {negative : Bool} {ds : List Char}
    (hne : ds ≠ []) (hdigits : ∀ c ∈ ds, isDecimalDigit c = true) :
    ({ n with exponent? := some (negative, ds) } : Numeral).Spelled isDecimalDigit := by
  refine ⟨⟨h.wellFormed.1, ?_⟩, h.mantissa, ?_⟩
  · rintro e ⟨⟩
    exact hne
  · rintro e ⟨⟩
    exact hdigits

/-- What a pattern for numbers matches is a numeral of its form. -/
theorem exists_of_mem_language (hform : form ≠ .logical) (h : word ∈ form.language) :
    ∃ n, Numeral.read? word = some n ∧ Form.ofNumeral n = form := by
  cases form with
  | logical => exact absurd rfl hform
  | integer =>
    obtain ⟨n, hn, hplaces, hexponent, rfl⟩ := exists_of_mem_integerLanguage h
    refine ⟨n, read?_eq_some_iff.mpr ⟨hn, 'e', rfl, ?_⟩, by simp [Form.ofNumeral, *]⟩
    rw [written_eq, hexponent, exponentWith, List.append_nil]
  | real =>
    obtain ⟨n, hn, hplaces, hexponent, rfl⟩ := exists_of_mem_realLanguage h
    refine ⟨n, read?_eq_some_iff.mpr ⟨hn, 'e', rfl, ?_⟩, by simp [Form.ofNumeral, *]⟩
    rw [written_eq, hexponent, exponentWith, List.append_nil]
  | float =>
    obtain ⟨number, hnumber, _, ⟨mark, hmark, scale, hscale, rfl⟩, rfl⟩ := Language.mem_mul.mp h
    obtain ⟨negative, ds, hne, hdigits, rfl⟩ := mem_integerLanguage_iff.mp hscale
    obtain ⟨c, hc, rfl⟩ : ∃ c, isExponentMark c = true ∧ mark = [c] := by
      rcases hmark with rfl | rfl
      · exact ⟨'e', rfl, rfl⟩
      · exact ⟨'E', rfl, rfl⟩
    obtain ⟨n, hn, rfl⟩ : ∃ n : Numeral, n.Spelled isDecimalDigit ∧ number = unscaled n := by
      rcases hnumber with hreal | hinteger
      · obtain ⟨n, hn, -, -, rfl⟩ := exists_of_mem_realLanguage hreal
        exact ⟨n, hn, rfl⟩
      · obtain ⟨n, hn, -, -, rfl⟩ := exists_of_mem_integerLanguage hinteger
        exact ⟨n, hn, rfl⟩
    refine ⟨{ n with exponent? := some (negative, ds) },
      read?_eq_some_iff.mpr ⟨spelled_scaled hn hne hdigits, c, hc, ?_⟩, rfl⟩
    rw [written_eq]
    rfl

/-- A numeral is matched by the pattern of its form. -/
theorem mem_language_of_read? (h : Numeral.read? word = some n) :
    word ∈ (Form.ofNumeral n).language := by
  obtain ⟨hn, mark, hmark, rfl⟩ := read?_eq_some_iff.mp h
  have hmem := unscaled_mem hn
  rw [written_eq]
  unfold Form.ofNumeral
  cases hexponent : n.exponent? with
  | none =>
    rw [exponentWith, List.append_nil, if_neg (by simp)]
    split
    · next hplaces => rwa [if_pos hplaces] at hmem
    · next hplaces => rwa [if_neg hplaces] at hmem
  | some e =>
    obtain ⟨negative, ds⟩ := e
    have hnumber : unscaled n ∈ realLanguage + integerLanguage := by
      split at hmem
      · exact .inl hmem
      · exact .inr hmem
    have hmark : [mark] ∈ ({['e']} + {['E']} : Language Char) := by
      rcases isExponentMark_iff.mp hmark with rfl | rfl
      · exact .inl rfl
      · exact .inr rfl
    have hscale : signText negative ++ ds ∈ integerLanguage :=
      mem_integerLanguage_iff.mpr ⟨negative, ds, hn.wellFormed.2 _ hexponent,
        hn.exponent _ hexponent, rfl⟩
    exact Language.append_mem_mul hnumber (Language.append_mem_mul hmark hscale)

/-- **The patterns for numbers match the numerals of their forms.** -/
theorem mem_language_iff (hform : form ≠ .logical) :
    word ∈ form.language ↔ ∃ n, Numeral.read? word = some n ∧ Form.ofNumeral n = form := by
  refine ⟨exists_of_mem_language hform, ?_⟩
  rintro ⟨n, hn, rfl⟩
  exact mem_language_of_read? hn

/-- **A word has a form exactly if the pattern of the form matches it.** -/
theorem accepts_iff_mem_language : form.accepts word = true ↔ word ∈ form.language := by
  by_cases hform : form = .logical
  · subst hform
    simp only [Form.accepts, List.any_cons, List.any_nil, Bool.or_false, Bool.or_eq_true,
      beq_iff_eq, Form.language, Language.mem_add, @eq_comm _ _ word, ← or_assoc]
    exact Iff.rfl
  · rw [mem_language_iff hform]
    cases form with
    | logical => exact absurd rfl hform
    | _ => simp only [Form.accepts, beq_iff_eq, Option.map_eq_some_iff]

/-- **A word is a numeral exactly if a pattern for numbers matches it.** -/
theorem isNumber_iff_mem_language :
    isNumber word = true ↔ ∃ form ≠ Form.logical, word ∈ form.language := by
  rw [isNumber, Option.isSome_iff_exists]
  constructor
  · rintro ⟨n, hn⟩
    exact ⟨Form.ofNumeral n, ofNumeral_ne_logical n, mem_language_of_read? hn⟩
  · rintro ⟨form, hform, hmem⟩
    obtain ⟨n, hn, -⟩ := exists_of_mem_language hform hmem
    exact ⟨n, hn⟩

end LayoutLex.Literal
