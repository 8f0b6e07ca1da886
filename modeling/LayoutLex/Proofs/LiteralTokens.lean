import LayoutLex.Proofs.Grammar
import LayoutLex.Proofs.Literals
import LayoutLex.Proofs.Lossless
import LayoutLex.Proofs.Number.Patterns
import LayoutLex.Proofs.OperatorTokens
import LayoutLex.Proofs.Spacing

/-!
# Tokens that have values

The tokens with values are numbers and strings. No word gets such a kind when it is classified, so
these tokens are as a scan has cut them off: a number is a word of numeral characters that is a
numeral, a string is a text between two double quotes. The value is read from the text of the token
once more; this module says what it is.

* `IsPart` are the pieces that tokens come from.
* `Numeral.Evaluates` says what a numeral has for a value, or that it has none because its number
  does not fit.

Results:
* `exists_isPart_of_lex`: every token comes from a piece of one of the scans.
* `exists_piece_of_lex`: it is of the same kind if no word is classified as such.
* `evaluates_read?`: the value of a numeral in ASCII digits.
* `tokenize_numbers`: the numbers of a source and their values, and what is marked as no number.
* `tokenize_strings`: the strings of a source and their values.
-/

namespace LayoutLex

open Text Scan Binary64

/-! ## Where the tokens come from -/

/-- Words are classified as names of some sort. -/
theorem Catalogue.kindOf_cases (c : Catalogue) (word : String) :
    c.kindOf word ∈ [.function, .command, .both, .operator, .flow, .keyword, .unresolved] := by
  unfold Catalogue.kindOf
  split_ifs <;> decide

namespace Text

theorem mem_of_mem_trimEnd {c : Char} {cs : List Char} (h : c ∈ trimEnd cs) : c ∈ cs := by
  rw [← trimEnd_append_takeWhile cs]
  exact List.mem_append_left _ h

theorem mem_of_mem_trim {c : Char} {cs : List Char} (h : c ∈ trim cs) : c ∈ cs :=
  (List.dropWhile_sublist _).mem (mem_of_mem_trimEnd h)

end Text

namespace Scan

theorem Spacing.mem_of_mem_cut {spacing : Spacing} {c : Char} {cs : List Char}
    (h : c ∈ (spacing.cut cs).2) : c ∈ cs := by
  cases spacing with
  | keep => exact h
  | drop => exact mem_of_mem_trim h

/-- A piece that a token comes from: a comment or string, or a lexeme of code. -/
inductive IsPart : Piece → Prop
  | segment {piece : Piece} {rest : List Char} (h : Segment piece rest)
      (hkind : piece.kind ≠ .unresolved) : IsPart piece
  | lexeme {piece : Piece} {rest : List Char} (h : Lexeme piece rest)
      (hcode : ∀ c ∈ piece.text, c ≠ '|' ∧ c ≠ '\x22' ∧ c ≠ '\x60') : IsPart piece

end Scan

namespace Lexer

variable {lexer : Lexer} {text : List Char} {file : String} {tokens : List Token} {t : Token}

/-- **A token is a part of the source**, cut and classified. -/
theorem exists_isPart_of_lex (h : lexer.lex text file = .ok tokens) (ht : t ∈ tokens) :
    ∃ piece span, IsPart piece ∧
      t = Token.classified lexer.catalogue
        ⟨piece.kind, String.ofList (lexer.spacing.cut piece.text).2, span⟩ := by
  rw [lex_eq] at h
  split at h
  · cases h
  cases h
  obtain ⟨part, hpart, rfl⟩ := List.mem_map.mp ht
  suffices hfrom : ∃ piece, IsPart piece ∧ part.kind = piece.kind ∧
      part.text = String.ofList (lexer.spacing.cut piece.text).2 by
    obtain ⟨piece, hpiece, hkind, htext⟩ := hfrom
    exact ⟨piece, part.span, hpiece, by rw [← hkind, ← htext]⟩
  obtain ⟨segment, hsegment, hpart⟩ := List.mem_flatMap.mp hpart
  obtain ⟨whole, hwhole, hkind, htext⟩ := exists_piece_of_mem_place hsegment
  obtain ⟨rest, hgrammar⟩ := segment_of_mem_segments text whole hwhole
  unfold parts at hpart
  split at hpart
  · next hresolved =>
    rw [List.mem_singleton.mp hpart]
    have hne : whole.kind ≠ .unresolved := by simpa [Token.isResolved, hkind] using hresolved
    exact ⟨whole, .segment hgrammar hne, hkind, htext⟩
  · next hopen =>
    obtain ⟨piece, hpiece, heq⟩ := exists_piece_of_mem_place hpart
    obtain ⟨after, hlexeme⟩ := lexeme_of_mem_lexemes _ piece hpiece
    refine ⟨piece, .lexeme hlexeme fun c hc => ?_, heq⟩
    -- A lexeme has no other characters than the segment that it is cut from.
    have hmem : c ∈ textOf (lexemes segment.text.toList) :=
      List.mem_flatMap.mpr ⟨piece, hpiece, hc⟩
    rw [textOf_lexemes, htext, String.toList_ofList] at hmem
    have hcode : whole.kind = .unresolved := by simpa [Token.isResolved, hkind] using hopen
    exact hgrammar.code_of_kind hcode c (Spacing.mem_of_mem_cut hmem)

/-- A token with a kind that no word is classified as comes from a piece of one of the scans. -/
theorem exists_piece_of_lex (h : lexer.lex text file = .ok tokens) (ht : t ∈ tokens)
    (hkind : t.kind ∈ [.number, .badNumber, .string]) :
    ∃ piece rest, (Segment piece rest ∨ Lexeme piece rest) ∧ t.kind = piece.kind ∧
      t.text = String.ofList (lexer.spacing.cut piece.text).2 := by
  obtain ⟨piece, span, hpart, rfl⟩ := exists_isPart_of_lex h ht
  have hgrammar : ∃ rest, Segment piece rest ∨ Lexeme piece rest := by
    cases hpart with
    | segment h => exact ⟨_, .inl h⟩
    | lexeme h => exact ⟨_, .inr h⟩
  obtain ⟨rest, hgrammar⟩ := hgrammar
  refine ⟨piece, rest, hgrammar, ?_, (classified_text_span _ _).1⟩
  have hnames : ∀ kind ∈ [TokenKind.number, .badNumber, .string],
      kind ∉ [TokenKind.function, .command, .both, .operator, .flow, .keyword, .unresolved] := by
    decide
  unfold Token.classified at hkind ⊢
  split at hkind
  · next hresolved => rw [if_pos hresolved]
  · exact absurd (lexer.catalogue.kindOf_cases _) (hnames _ hkind)

end Lexer

/-! ## The values of numerals -/

namespace Numeral

/-- What a numeral in ASCII digits has for a value. Without a point and an exponent that is the
integer written, if it has 64 bits. With one of them it is the nearest real, if that is finite. -/
inductive Evaluates (n : Numeral) : Option Value → Prop
  | integer {k : Int64} (hreal : ¬ n.IsReal)
      (hk : k.toInt = signed n.negative (digitsValue n.whole)) : Evaluates n (some (.integer k))
  | tooLarge (hreal : ¬ n.IsReal)
      (hlarge : signed n.negative (digitsValue n.whole) < -2 ^ 63 ∨
        2 ^ 63 ≤ signed n.negative (digitsValue n.whole)) : Evaluates n none
  | real {x : Binary64} (hreal : n.IsReal) (hfinite : x.isFinite = true)
      (hsign : x.negative = n.negative) (hnearest : Nearest x.place n.magnitude) :
      Evaluates n (some (.real x))
  | infinite (hreal : n.IsReal) (hnearest : Nearest infinityPlace n.magnitude) : Evaluates n none

variable {n : Numeral}

/-- A numeral has one value, or none. -/
theorem Evaluates.unique {v? w? : Option Value} (hv : n.Evaluates v?) (hw : n.Evaluates w?) :
    v? = w? := by
  have hfits : ∀ k : Int64, -2 ^ 63 ≤ k.toInt ∧ k.toInt < 2 ^ 63 := fun k =>
    ⟨k.le_toInt, k.toInt_lt⟩
  cases hv with
  | @integer k hreal hk =>
    cases hw with
    | integer _ hk' => rw [Int64.toInt_inj.mp (hk.trans hk'.symm)]
    | tooLarge _ hlarge =>
      have := hfits k
      omega
    | real hreal' => exact absurd hreal' hreal
    | infinite hreal' => exact absurd hreal' hreal
  | tooLarge hreal hlarge =>
    cases hw with
    | @integer k _ hk =>
      have := hfits k
      omega
    | tooLarge => rfl
    | real hreal' => exact absurd hreal' hreal
    | infinite hreal' => exact absurd hreal' hreal
  | @real x hreal hfinite hsign hnearest =>
    have hplace : x.place < infinityPlace := of_decide_eq_true hfinite
    cases hw with
    | integer hreal' => exact absurd hreal hreal'
    | tooLarge hreal' => exact absurd hreal hreal'
    | @real y _ hfinite' hsign' hnearest' =>
      have hplace' : y.place < infinityPlace := of_decide_eq_true hfinite'
      have hsame := hnearest.unique hnearest' hplace.le hplace'.le
      obtain ⟨negative, place, hlt⟩ := x
      obtain ⟨negative', place', hlt'⟩ := y
      cases hsame
      cases hsign.trans hsign'.symm
      rfl
    | infinite _ hnearest' =>
      exact absurd (hnearest.unique hnearest' hplace.le le_rfl) hplace.ne
  | infinite hreal hnearest =>
    cases hw with
    | integer hreal' => exact absurd hreal hreal'
    | tooLarge hreal' => exact absurd hreal hreal'
    | @real x _ hfinite _ hnearest' =>
      have hplace : x.place < infinityPlace := of_decide_eq_true hfinite
      exact absurd (hnearest'.unique hnearest hplace.le le_rfl) hplace.ne
    | infinite => rfl

/-- **A numeral in ASCII digits is read as its value.** -/
theorem evaluates_read? (h : n.Spelled Char.isDigit) {mark : Char}
    (hmark : isExponentMark mark = true) : n.Evaluates (Literal.read? (n.written mark)) := by
  have hn := read?_written h.ofAscii hmark
  cases hread : Literal.read? (n.written mark) with
  | some v =>
    rcases (Literal.read?_numeral_iff hn).mp hread with ⟨hreal, k, hk, rfl⟩ | ⟨hreal, x, hx, rfl⟩
    · exact .integer hreal (integer?_eq_some_iff.mp hk).2
    · obtain ⟨hfinite, hsign, hnearest⟩ := (real?_eq_some_iff_of_spelled h).mp hx
      exact .real hreal hfinite hsign hnearest
  | none =>
    have hnone : ∀ v, Literal.read? (n.written mark) ≠ some v := by simp [hread]
    by_cases hreal : n.IsReal
    · obtain ⟨-, hle, hnearest⟩ := n.decimal.nearest_place n.negative
      have hinfinite : ¬ (n.decimal.nearest n.negative).isFinite = true := by
        intro hfinite
        have hx : n.real? = some _ := (real?_of_spelled h).trans (if_pos hfinite)
        exact hnone _ ((Literal.read?_numeral_iff hn).mpr (.inr ⟨hreal, _, hx, rfl⟩))
      have hplace : (n.decimal.nearest n.negative).place = infinityPlace :=
        le_antisymm hle (not_lt.mp fun hlt => hinfinite (decide_eq_true hlt))
      rw [hplace, value_decimal] at hnearest
      exact .infinite hreal hnearest
    · refine .tooLarge hreal ?_
      by_contra hfits
      obtain ⟨hleast, hgreatest⟩ := not_or.mp hfits
      have hk : n.integer? = some (Int64.ofInt (signed n.negative (digitsValue n.whole))) :=
        integer?_eq_some_iff.mpr ⟨h.whole, Int64.toInt_ofInt_of_le (by omega) (by omega)⟩
      exact hnone _ ((Literal.read?_numeral_iff hn).mpr (.inl ⟨hreal, _, hk, rfl⟩))

theorem mem_signText {negative : Bool} {c : Char} (h : c ∈ signText negative) : c = '-' := by
  cases negative with
  | false => cases h
  | true => exact List.mem_singleton.mp h

/-- The characters of a numeral are digits, the sign, the point and the mark. -/
theorem Spelled.cases_of_mem_written {digit : Char → Bool} (h : n.Spelled digit) {mark c : Char}
    (hc : c ∈ n.written mark) : digit c = true ∨ c = '-' ∨ c = '.' ∨ c = mark := by
  simp only [written, List.mem_append] at hc
  rcases hc with hsign | (hwhole | hplaces) | hexponent
  · exact .inr (.inl (mem_signText hsign))
  · exact .inl (h.whole c hwhole)
  · cases hsome : n.places? with
    | none =>
      rw [hsome] at hplaces
      cases hplaces
    | some ds =>
      rw [hsome] at hplaces
      rcases List.mem_cons.mp hplaces with hpoint | hc
      · exact .inr (.inr (.inl hpoint))
      · exact .inl (h.places ds hsome c hc)
  · cases hsome : n.exponent? with
    | none =>
      rw [hsome] at hexponent
      cases hexponent
    | some e =>
      rw [hsome] at hexponent
      rcases List.mem_cons.mp hexponent with hmark | hc
      · exact .inr (.inr (.inr hmark))
      rcases List.mem_append.mp hc with hsign | hc
      · exact .inr (.inl (mem_signText hsign))
      · exact .inl (h.exponent e hsome c hc)

/-- A digit that a number of code may have is an ASCII digit. -/
theorem isDigit_of_isNumberChar {c : Char} (h : isNumberChar c = true)
    (hdigit : isDecimalDigit c = true) : c.isDigit = true := by
  simp only [isNumberChar, isSign, Bool.or_eq_true, beq_iff_eq] at h
  rcases h with (((h | rfl) | (rfl | rfl)) | rfl) | rfl
  · exact h
  all_goals
    revert hdigit
    decide

theorem mem_written_of_mem_mantissa {c : Char} (h : c ∈ n.mantissa) (mark : Char) :
    c ∈ n.written mark := by
  have hplaces : c ∈ n.places?.getD [] → c ∈ placesText n.places? := by
    cases n.places? with
    | none => exact id
    | some ds => exact List.mem_cons_of_mem '.'
  simp only [written, List.mem_append]
  exact .inr (.inl ((List.mem_append.mp h).imp_right hplaces))

theorem mem_written_of_mem_exponent {e : Bool × List Char} (he : e ∈ n.exponent?) {c : Char}
    (h : c ∈ e.2) (mark : Char) : c ∈ n.written mark := by
  rw [written, Option.mem_def.mp he, exponentWith]
  exact List.mem_append_right _
    (List.mem_append_right _ (List.mem_cons_of_mem mark (List.mem_append_right _ h)))

/-- A numeral that is a word of code has ASCII digits. -/
theorem Spelled.of_isNumberChar {mark : Char} (h : n.Spelled isDecimalDigit)
    (hword : ∀ c ∈ n.written mark, isNumberChar c = true) : n.Spelled Char.isDigit where
  wellFormed := h.wellFormed
  mantissa c hc := isDigit_of_isNumberChar (hword c (mem_written_of_mem_mantissa hc mark))
    (h.mantissa c hc)
  exponent e he c hc := isDigit_of_isNumberChar (hword c (mem_written_of_mem_exponent he hc mark))
    (h.exponent e he c hc)

end Numeral

/-! ## Numbers -/

namespace Scan

variable {piece : Piece} {rest : List Char}

/-- A piece that is marked as a number, or as a bad one, has number characters only. The first mark
means that it is a numeral. -/
theorem Lexeme.number_of_kind (h : Lexeme piece rest)
    (hkind : piece.kind = .number ∨ piece.kind = .badNumber) :
    (∀ c ∈ piece.text, isNumberChar c = true) ∧
      (piece.kind = .number ↔ Literal.isNumber piece.text = true) := by
  cases h with
  | number hstart hword _ =>
    refine ⟨?_, by split <;> simp [*]⟩
    obtain ⟨d, tail, hd, rfl | rfl⟩ := hstart
    · exact List.forall_mem_cons.mpr
        ⟨isNumberChar_of_isNumberStart hd, isNumberChar_of_isChain hword⟩
    · exact List.forall_mem_cons.mpr ⟨by decide, isNumberChar_of_isChain hword⟩
  | delimiter =>
    dsimp only at hkind
    split at hkind <;> rcases hkind with hkind | hkind <;> cases hkind
  | _ => rcases hkind with hkind | hkind <;> cases hkind

/-- No segment is a number. -/
theorem Segment.not_number (h : Segment piece rest) :
    ¬ (piece.kind = .number ∨ piece.kind = .badNumber) := by
  cases h <;> simp

/-- No lexeme is a string. -/
theorem Lexeme.kind_ne_string (h : Lexeme piece rest) : piece.kind ≠ .string := by
  cases h with
  | number => split <;> simp
  | delimiter => split <;> simp
  | _ => simp

theorem trim_of_ends {c d : Char} (hc : isBlank c = false) (hd : isBlank d = false)
    (cs : List Char) : trim (c :: (cs ++ [d])) = c :: (cs ++ [d]) := by
  have hstart : trimStart (c :: (cs ++ [d])) = c :: (cs ++ [d]) :=
    dropWhile_of_stops (stops_cons.mpr hc)
  have hreverse : (c :: (cs ++ [d])).reverse = d :: (c :: cs).reverse := by simp
  rw [trim, hstart, trimEnd, hreverse, dropWhile_of_stops (stops_cons.mpr hd), ← hreverse,
    List.reverse_reverse]

/-- A piece that is its own trimmed text loses nothing. -/
theorem Spacing.cut_of_trim {text : List Char} (h : trim text = text) (spacing : Spacing) :
    (spacing.cut text).2 = text := by
  cases spacing with
  | keep => rfl
  | drop => exact h

end Scan

namespace Lexer

variable {lexer : Lexer} {source : String} {file? : Option String} {tokens : List Token}

/-- A token that is marked as a number, or as a bad one, has number characters only. The first mark
means that it is a numeral. -/
theorem number_of_lex {text : List Char} {file : String} (h : lexer.lex text file = .ok tokens)
    {t : Token} (ht : t ∈ tokens) (hkind : t.kind = .number ∨ t.kind = .badNumber) :
    (∀ c ∈ t.text.toList, isNumberChar c = true) ∧
      (t.kind = .number ↔ Literal.isNumber t.text.toList = true) := by
  have hmem : t.kind ∈ [.number, .badNumber, .string] := by
    rcases hkind with hkind | hkind <;> simp [hkind]
  obtain ⟨piece, rest, hgrammar, hsame, htext⟩ := exists_piece_of_lex h ht hmem
  rw [hsame] at hkind ⊢
  rcases hgrammar with hsegment | hlexeme
  · exact absurd hkind hsegment.not_number
  · have hnumber := hlexeme.number_of_kind hkind
    have htrim := trim_of_not_isBlank fun c hc => not_isBlank_of_isNumberChar (hnumber.1 c hc)
    rw [htext, String.toList_ofList, Spacing.cut_of_trim htrim]
    exact hnumber

/-- **Numbers and their values.** A token is marked as a number only if its text is a numeral in
ASCII digits, and its value is that of the numeral: there is none only if the number does not fit.
What is marked as a bad number is no numeral. -/
theorem tokenize_numbers (h : lexer.tokenize source file? = .ok tokens) :
    (∀ t ∈ tokens, t.kind = .number →
      (∀ c ∈ t.text.toList, c.isDigit = true ∨ c ∈ ['-', '.', 'e', 'E']) ∧
      ∃ (n : Numeral) (mark : Char), n.Spelled Char.isDigit ∧
        Numeral.isExponentMark mark = true ∧ t.text.toList = n.written mark ∧
        ∀ v?, n.Evaluates v? ↔ v? = t.literal?) ∧
    ∀ t ∈ tokens, t.kind = .badNumber → ∀ form ≠ Literal.Form.logical,
      form.accepts t.text.toList = false ∧ t.text.toList ∉ form.language := by
  refine ⟨fun t ht hkind => ?_, fun t ht hkind form hform => ?_⟩
  · obtain ⟨hchars, hnumber⟩ := number_of_lex h ht (.inl hkind)
    obtain ⟨n, hn⟩ := Option.isSome_iff_exists.mp (hnumber.mp hkind)
    obtain ⟨hdigits, mark, hmark, htext⟩ := Numeral.read?_eq_some_iff.mp hn
    have hspelled := hdigits.of_isNumberChar (htext ▸ hchars)
    have hvalue : t.literal? = Literal.read? (n.written mark) := by
      rw [Token.literal?, hkind, htext]
    have hevaluates := Numeral.evaluates_read? hspelled hmark
    refine ⟨fun c hc => ?_, n, mark, hspelled, hmark, htext, fun v? => ?_⟩
    · rcases hspelled.cases_of_mem_written (htext ▸ hc) with hdigit | rfl | rfl | rfl
      · exact .inl hdigit
      · exact .inr (by decide)
      · exact .inr (by decide)
      · rcases Numeral.isExponentMark_iff.mp hmark with rfl | rfl
        · exact .inr (by decide)
        · exact .inr (by decide)
    · rw [hvalue]
      exact ⟨fun hv => hv.unique hevaluates, fun heq => heq ▸ hevaluates⟩
  · obtain ⟨-, hnumber⟩ := number_of_lex h ht (.inr hkind)
    have hnot : ¬ Literal.isNumber t.text.toList = true := by
      rw [← hnumber, hkind]
      decide
    have hlanguage : t.text.toList ∉ form.language := fun hmem =>
      hnot (Literal.isNumber_iff_mem_language.mpr ⟨form, hform, hmem⟩)
    exact ⟨Bool.eq_false_iff.mpr (Literal.accepts_iff_mem_language.not.mpr hlanguage), hlanguage⟩

theorem tokenize_numbers_overflow :
    let large : Token := ⟨.number, "1e999", ⟨6, "shell"⟩, ⟨11, "shell"⟩⟩
    let bad : Token := ⟨.badNumber, "1.2.3", ⟨12, "shell"⟩, ⟨17, "shell"⟩⟩
    tokenize ⟨.empty, .drop⟩ "-.5E1 1e999 1.2.3" none =
        .ok [⟨.number, "-.5E1", ⟨0, "shell"⟩, ⟨5, "shell"⟩⟩, large, bad] ∧
      (∃ (n : Numeral) (mark : Char), "1e999".toList = n.written mark ∧ n.Evaluates none) ∧
      "1.2.3".toList ∉ Literal.Form.real.language := by
  intro large bad
  have h : tokenize ⟨.empty, .drop⟩ "-.5E1 1e999 1.2.3" none =
      .ok [⟨.number, "-.5E1", ⟨0, "shell"⟩, ⟨5, "shell"⟩⟩, large, bad] :=
    eq_ok_of_toOption_eq_some (by decide +kernel)
  obtain ⟨hnumbers, hbad⟩ := tokenize_numbers h
  obtain ⟨-, n, mark, -, -, htext, hvalue⟩ := hnumbers large (by decide) rfl
  have hnone : large.literal? = none := Option.isNone_iff_eq_none.mp (by decide +kernel)
  exact ⟨h, ⟨n, mark, htext, (hvalue none).mpr hnone.symm⟩,
    (hbad bad (by decide) rfl .real (by decide)).2⟩

/-! ## Strings -/

/-- A token of a string is a text between double quotes that has none in it. -/
theorem exists_body_of_string {text : List Char} {file : String}
    (h : lexer.lex text file = .ok tokens) {t : Token} (ht : t ∈ tokens)
    (hkind : t.kind = .string) :
    ∃ body, '\x22' ∉ body ∧ t.text.toList = '\x22' :: (body ++ ['\x22']) := by
  obtain ⟨piece, rest, hgrammar, hsame, htext⟩ := exists_piece_of_lex h ht (by simp [hkind])
  rw [hkind] at hsame
  rcases hgrammar with hsegment | hlexeme
  · cases hsegment with
    | @string body _ hbody =>
      have htrim : trim ('\x22' :: (body ++ ['\x22'])) = _ := trim_of_ends rfl rfl body
      rw [htext, String.toList_ofList, Spacing.cut_of_trim htrim]
      exact ⟨body, hbody, rfl⟩
    | _ => cases hsame
  · exact absurd hsame.symm hlexeme.kind_ne_string

/-- **Strings and their values.** A token of a string has two quotes at its ends, and the bytes of
the source between them have no quote. Its value is null if there are none, and otherwise the vector
of these bytes as characters, which has been given the mode of characters. -/
theorem tokenize_strings (h : lexer.tokenize source file? = .ok tokens) :
    ∀ t ∈ tokens, t.kind = .string →
      let inner := bytesBetween source.toList (t.span.start.offset + 1) (t.span.stop.offset - 1)
      t.span.start.offset + 2 ≤ t.span.stop.offset ∧ '\x22'.toUInt8 ∉ inner ∧
        (inner = [] → t.literal? = some .null) ∧
        (inner ≠ [] → t.literal? = some (.vector ⟨inner.map .character, some .char⟩) ∧
          t.literal?.bind Value.mode? = some .char) := by
  intro t ht hkind inner
  obtain ⟨body, hbody, htext⟩ := exists_body_of_string h ht hkind
  obtain ⟨before, after, hsource, hstart, hstop⟩ := exists_split_of_covers (covers_of_lex h) ht
  have hquote : byteLength ['\x22'] = 1 := by decide
  have hlength : t.span.stop.offset = t.span.start.offset + (1 + (byteLength body + 1)) := by
    rw [hstop, htext, ← List.singleton_append, byteLength_append, byteLength_append, hquote]
  have hinner : inner = encode body := by
    have hsplit : source.toList = (before ++ ['\x22']) ++ body ++ (['\x22'] ++ after) := by
      rw [hsource, htext]
      simp
    have hfirst : t.span.start.offset + 1 = byteLength (before ++ ['\x22']) := by
      rw [hstart, byteLength_append, hquote, Nat.zero_add]
    have hlast : t.span.stop.offset - 1 = t.span.start.offset + 1 + byteLength body := by omega
    show bytesBetween _ _ _ = _
    rw [hlast, hfirst, hsplit, bytesBetween_append]
  have hvalue : t.literal? = some (if body.isEmpty then .null else .ofText body) := by
    have hunquoted : Token.unquoted? ('\x22' :: (body ++ ['\x22'])) = some body := by
      simp [Token.unquoted?]
    rw [Token.literal?, hkind, htext]
    simp [hunquoted]
  rw [hinner, hvalue]
  refine ⟨by omega, not_mem_encode (by decide) hbody, fun hempty => ?_, fun hne => ?_⟩
  · rw [eq_nil_of_encode_eq_nil hempty]
    rfl
  · have hbody : body.isEmpty = false := by
      rw [List.isEmpty_eq_false_iff]
      rintro rfl
      exact hne rfl
    have htext : Value.ofText body =
        .vector ⟨(encode body).map .character, some .char⟩ := by
      rw [Value.ofText, hbody]
      rfl
    rw [hbody, ← htext]
    exact ⟨rfl, congrArg Value.mode? htext⟩

theorem tokenize_strings_bytes :
    let empty : Token := ⟨.string, "\"\"", ⟨0, "shell"⟩, ⟨2, "shell"⟩⟩
    let bytes : Token := ⟨.string, "\"é|\"", ⟨2, "shell"⟩, ⟨7, "shell"⟩⟩
    tokenize ⟨.empty, .keep⟩ "\"\"\"é|\"" none = .ok [empty, bytes] ∧
      empty.literal? = some .null ∧
      bytes.literal? = some (.vector ⟨[0xC3, 0xA9, 0x7C].map .character, some .char⟩) := by
  intro empty bytes
  have h : tokenize ⟨.empty, .keep⟩ "\"\"\"é|\"" none = .ok [empty, bytes] :=
    eq_ok_of_toOption_eq_some (by decide +kernel)
  have hempty := tokenize_strings h empty (by decide) rfl
  have hbytes := tokenize_strings h bytes (by decide) rfl
  have hinner : bytesBetween "\"\"\"é|\"".toList (2 + 1) (7 - 1) = [0xC3, 0xA9, 0x7C] := by
    decide +kernel
  refine ⟨h, hempty.2.2.1 (by decide +kernel), ?_⟩
  rw [← hinner]
  exact (hbytes.2.2.2 (by decide +kernel)).1

end Lexer

end LayoutLex
