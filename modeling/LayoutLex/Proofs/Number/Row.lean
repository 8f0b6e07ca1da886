import LayoutLex.Proofs.Number.Word
import LayoutLex.Proofs.Spacing
import LayoutLex.Proofs.Unclosed

/-!
# Rows of numbers

A row is made of plain numerals with spaces between, before and after them (`Row`). It has no
comments and strings, so it is one segment of code, and the lexer cuts it into its numerals.

Results:
* `parts_of_code`: a source without openers is lexed as its trimmed text.
* `Row.append`: two rows with a space between are a row.
* `Row.trim`: a row stays one without its outer spaces.
* `Row.lex`: the tokens of a row are numbers and denote the values of its numerals.
-/

namespace LayoutLex

open Text Scan Numeral

/-! ## Sources that are all code -/

/-- The parts of a source without openers are the lexemes of its trimmed text. -/
theorem Lexer.parts_of_code {cs : List Char} (h : ∀ c ∈ cs, isOpener c = false) (file : String) :
    (segmentsOf .drop file cs).flatMap (parts .drop) =
      place .drop file (byteLength (leading cs)) (lexemes (trim cs)) := by
  rw [segmentsOf, segments_of_code h]
  by_cases hempty : cs = []
  · rw [hempty, if_pos rfl, trim_nil, lexemes]
    rfl
  rw [if_neg hempty]
  by_cases htrim : trim cs = []
  · rw [htrim, lexemes]
    simp [place, Piece.token?, Spacing.cut, htrim]
  · simp [place, Piece.token?, Spacing.cut, htrim, parts, Token.isResolved, leading]

/-! ## Rows -/

/-- A text of plain numerals with spaces between them, and the values that they denote. -/
inductive Row : List Char → List Value → Prop
  | nil : Row [] []
  /-- One more space in front. -/
  | space {cs : List Char} {vs : List Value} : Row cs vs → Row (' ' :: cs) vs
  /-- One more numeral in front; what follows cannot be read as a part of it. -/
  | numeral {n : Numeral} {v : Value} {cs : List Char} {vs : List Value} : n.Plain →
      Literal.read? n.text = some v → Stops isNumberChar cs → Row cs vs →
      Row (n.text ++ cs) (v :: vs)

namespace Row

variable {as bs cs : List Char} {us vs : List Value}

theorem single {n : Numeral} {v : Value} (h : n.Plain) (hvalue : Literal.read? n.text = some v) :
    Row n.text [v] := by
  have hrow := numeral h hvalue stops_nil nil
  rwa [List.append_nil] at hrow

/-- **Two rows with a space between are a row.** -/
theorem append (ha : Row as us) (hb : Row bs vs) : Row (as ++ ' ' :: bs) (us ++ vs) := by
  induction ha with
  | nil => exact hb.space
  | space _ ih => exact ih.space
  | @numeral n v cs us hplain hvalue hstops hrow ih =>
    rw [List.append_assoc]
    refine numeral hplain hvalue ?_ ih
    by_cases hne : cs = []
    · rw [hne]
      exact stops_cons.mpr (by decide)
    · exact stops_append hne hstops _

theorem isNumberChar_or_space (h : Row cs vs) : ∀ c ∈ cs, isNumberChar c = true ∨ c = ' ' := by
  induction h with
  | nil => exact fun c hc => absurd hc List.not_mem_nil
  | space _ ih =>
    intro c hc
    rcases List.mem_cons.mp hc with rfl | hc
    · exact Or.inr rfl
    · exact ih c hc
  | numeral hplain _ _ _ ih =>
    intro c hc
    rcases List.mem_append.mp hc with hc | hc
    · exact Or.inl (hplain.isNumberChar_text c hc)
    · exact ih c hc

/-- There is nothing but code in a row. -/
theorem not_isOpener (h : Row cs vs) : ∀ c ∈ cs, isOpener c = false := by
  intro c hc
  rw [← Bool.not_eq_true, isOpener_iff]
  intro hopener
  rcases h.isNumberChar_or_space c hc with hchar | rfl
  · rcases hopener with rfl | rfl | rfl
    · exact absurd hchar (by decide)
    · exact absurd hchar (by decide)
    · exact absurd hchar (by decide)
  · revert hopener
    decide

/-! ### Trimming a row -/

theorem trimStart (h : Row cs vs) : Row (Text.trimStart cs) vs := by
  induction h with
  | nil => exact nil
  | space _ ih =>
    rw [trimStart_cons (by decide)]
    exact ih
  | numeral hplain hvalue hstops hrow _ =>
    obtain ⟨c, cs, htext, -, -⟩ := hplain.exists_word
    have hblank := hplain.not_isBlank_text c (htext ▸ List.mem_cons_self)
    have hkeep := numeral hplain hvalue hstops hrow
    rw [htext, List.cons_append] at hkeep ⊢
    rwa [Text.trimStart, dropWhile_of_stops (stops_cons.mpr hblank)]

theorem trimEnd (h : Row cs vs) : Row (Text.trimEnd cs) vs := by
  induction h with
  | nil => exact nil
  | @space cs vs hrow ih =>
    rw [trimEnd_cons]
    split
    · next hnil =>
      rw [hnil.2] at ih
      exact ih
    · exact ih.space
  | @numeral n v cs vs hplain hvalue hstops hrow ih =>
    rw [trimEnd_append_of_not_isBlank hplain.not_isBlank_text]
    exact numeral hplain hvalue (stops_trimEnd hstops) ih

theorem trim (h : Row cs vs) : Row (Text.trim cs) vs :=
  h.trimStart.trimEnd

/-! ### The tokens of a row -/

/-- The lexemes of a row are its numerals, once blanks are dropped. -/
theorem place_lexemes (h : Row cs vs) (file : String) (start : Nat) :
    (∀ t ∈ place .drop file start (lexemes cs), t.kind = .number) ∧
      (place .drop file start (lexemes cs)).map Token.literal? = vs.map some := by
  induction h generalizing start with
  | nil =>
    rw [lexemes]
    exact ⟨fun t ht => absurd ht List.not_mem_nil, rfl⟩
  | space _ ih =>
    rw [place_lexemes_cons_blank (by decide)]
    exact ih _
  | @numeral n v cs vs hplain hvalue hstops _ ih =>
    obtain ⟨hkinds, hvalues⟩ := ih (start + byteLength n.text)
    have hcut := Spacing.cut_of_not_isBlank hplain.not_isBlank_text .drop
    obtain ⟨span, htoken⟩ : ∃ span, (⟨.number, n.text⟩ : Piece).token? .drop file start =
        some ⟨.number, String.ofList n.text, span⟩ :=
      ⟨_, token?_of_cut hplain.text_ne_nil hcut .number⟩
    rw [lexemes_numeral hplain hstops, place_cons, htoken]
    constructor
    · intro t ht
      rcases List.mem_cons.mp ht with rfl | ht
      · rfl
      · exact hkinds t ht
    · have hliteral : (⟨.number, String.ofList n.text, span⟩ : Token).literal? = some v := by
        rw [Token.literal?, String.toList_ofList, hvalue]
      rw [List.map_append, hvalues]
      exact congrArg (· :: _) hliteral

/-- **The tokens of a row are numbers and denote the values of its numerals.** -/
theorem lex (h : Row cs vs) (catalogue : Catalogue) (file : String) :
    ∃ tokens, (⟨catalogue, .drop⟩ : Lexer).lex cs file = .ok tokens ∧
      (∀ t ∈ tokens, t.kind = .number) ∧ tokens.map Token.literal? = vs.map some := by
  have hplace := h.trim.place_lexemes file (byteLength (leading cs))
  rw [← Lexer.parts_of_code h.not_isOpener] at hplace
  have hclassified :
      ((Lexer.segmentsOf .drop file cs).flatMap (Lexer.parts .drop)).map
          (Token.classified catalogue) =
        (Lexer.segmentsOf .drop file cs).flatMap (Lexer.parts .drop) := by
    refine (List.map_congr_left (g := id) fun t ht => ?_).trans (List.map_id _)
    have hresolved : t.isResolved = true := by
      rw [Token.isResolved, hplace.1 t ht]
      rfl
    rw [Token.classified, if_pos hresolved]
    rfl
  refine ⟨_, ?_, hplace⟩
  rw [Lexer.lex_eq, segments_of_code h.not_isOpener]
  exact congrArg _ hclassified

end Row

end LayoutLex
