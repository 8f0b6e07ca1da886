import LayoutLex.Proofs.Lexemes
import LayoutLex.Proofs.Number.Written

/-!
# Numerals are number words

The only signs in a plain numeral are at its start and after the mark of its exponent, so no sign
follows a digit and the scan of a number takes the whole numeral. It stops there if what follows
cannot be a part of a number.

Results:
* `numberTail_digits`: how far a number goes.
* `lexemes_numeral`: a numeral before the end of a text or before a character that is no part of a
  number is a lexeme.
-/

namespace LayoutLex

open Text Scan Numeral

/-! ## Characters of numbers -/

namespace Scan

variable {c last : Char} {cs run rest : List Char}

theorem isNumberChar_of_isDigit (h : c.isDigit = true) : isNumberChar c = true := by
  simp [isNumberChar, h]

theorem isSign_of_isDigit (h : c.isDigit = true) : isSign c = false := by
  have hplus : c ≠ '+' := by
    rintro rfl
    cases h
  have hminus : c ≠ '-' := by
    rintro rfl
    cases h
  simp [isSign, hplus, hminus]

/-! ## How far a number goes -/

/-- A number goes on with what is no sign. -/
theorem numberTail_cons (hchar : isNumberChar c = true) (hsign : isSign c = false)
    (last : Char) (cs : List Char) : numberTail last (c :: cs) = c :: numberTail c cs := by
  rw [numberTail, if_pos (by rw [hchar, hsign]; rfl)]

/-- A number goes on with digits. -/
theorem numberTail_digits (hrun : ∀ c ∈ run, c.isDigit = true)
    (hrest : ∀ last, numberTail last rest = rest) (last : Char) :
    numberTail last (run ++ rest) = run ++ rest := by
  induction run generalizing last with
  | nil => exact hrest last
  | cons c run ih =>
    have hdigit := hrun c List.mem_cons_self
    rw [List.cons_append,
      numberTail_cons (isNumberChar_of_isDigit hdigit) (isSign_of_isDigit hdigit),
      ih fun d hd => hrun d (List.mem_cons_of_mem c hd)]

end Scan

/-! ## Numerals -/

namespace Numeral

variable {n : Numeral} {rest : List Char}

/-- The sign of an exponent follows its mark, so the number goes on with it. -/
theorem numberTail_exponentText {e? : Option (Bool × List Char)}
    (h : ∀ e ∈ e?, ∀ c ∈ e.2, c.isDigit = true) (last : Char) :
    numberTail last (exponentText e?) = exponentText e? := by
  cases e? with
  | none => rfl
  | some e =>
    obtain ⟨negative, ds⟩ := e
    have hdigits : ∀ last, numberTail last (ds ++ []) = ds ++ [] :=
      numberTail_digits (h _ rfl) fun _ => rfl
    rw [List.append_nil] at hdigits
    rw [exponentText, numberTail_cons (by decide) (by decide)]
    cases negative with
    | false => exact congrArg _ (hdigits 'e')
    | true => exact congrArg (['e', '-'] ++ ·) (hdigits '-')

theorem numberTail_unsigned (h : n.Plain) (last : Char) :
    numberTail last (n.whole ++ placesText n.places? ++ exponentText n.exponent?) =
      n.whole ++ placesText n.places? ++ exponentText n.exponent? := by
  have hexponent := numberTail_exponentText h.isDigit_exponent
  rw [List.append_assoc]
  refine numberTail_digits h.isDigit_whole (fun last => ?_) last
  cases hplaces : n.places? with
  | none => exact hexponent last
  | some ds =>
    rw [placesText, List.cons_append, numberTail_cons (by decide) (by decide),
      numberTail_digits (h.isDigit_places ds hplaces) hexponent]

/-- A plain numeral is a number word as a whole. -/
theorem Plain.exists_word (h : n.Plain) :
    ∃ c cs, n.text = c :: cs ∧ startsNumber c cs = true ∧ numberTail c cs = cs := by
  obtain ⟨c, cs, hunsigned, hstart⟩ := h.exists_numberStart
  have htail := numberTail_unsigned h
  rw [hunsigned] at htail
  unfold text
  rw [hunsigned]
  cases n.negative with
  | true =>
    refine ⟨'-', c :: cs, rfl, ?_, htail '-'⟩
    simp [startsNumber, hstart]
  | false =>
    refine ⟨c, cs, rfl, ?_, ?_⟩
    · simp [startsNumber, hstart]
    · have hcons := htail '.'
      rw [numberTail] at hcons
      split at hcons
      · exact (List.cons.inj hcons).2
      · cases hcons

theorem Plain.isNumberChar_text (h : n.Plain) : ∀ c ∈ n.text, isNumberChar c = true := by
  obtain ⟨c, cs, htext, hstart, htail⟩ := h.exists_word
  intro d hd
  rw [htext] at hd
  rcases List.mem_cons.mp hd with rfl | hd
  · rcases startsNumber_cases hstart with hnumber | rfl
    · rcases Bool.or_eq_true_iff.mp hnumber with hdigit | hpoint
      · exact isNumberChar_of_isDigit hdigit
      · rw [beq_iff_eq.mp hpoint]
        decide
    · decide
  · rw [← htail] at hd
    exact isNumberChar_of_mem_numberTail hd

theorem Plain.not_isBlank_text (h : n.Plain) : ∀ c ∈ n.text, isBlank c = false :=
  fun c hc => not_isBlank_of_isNumberChar (h.isNumberChar_text c hc)

theorem Plain.text_ne_nil (h : n.Plain) : n.text ≠ [] := by
  obtain ⟨c, cs, htext, -, -⟩ := h.exists_word
  rw [htext]
  exact List.cons_ne_nil c cs

/-- **A numeral that nothing goes on is a lexeme.** -/
theorem lexemes_numeral (h : n.Plain) (hrest : Stops isNumberChar rest) :
    lexemes (n.text ++ rest) = ⟨.number, n.text⟩ :: lexemes rest := by
  obtain ⟨c, cs, htext, hstart, htail⟩ := h.exists_word
  have hnumber : Literal.isNumber (c :: cs) = true := by
    rw [← htext, Literal.isNumber, read?_text h]
    rfl
  rw [htext, List.cons_append, lexemes_cons,
    lexeme_of_startsNumber (startsNumber_append_of_startsNumber hstart rest),
    numberTail_append htail hrest, List.drop_left, number, if_pos hnumber]

end Numeral

end LayoutLex
