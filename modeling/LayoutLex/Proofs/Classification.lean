import LayoutLex.Proofs.Lexing
import Mathlib.Data.List.Forall2

/-!
# What the catalogue decides

Both scans are made without the catalogue. It comes in last, where it gives a kind to words that
have none, and it is asked about nothing but the word. So two catalogues lex a source alike except
for the kinds of words on which they disagree.

* `Catalogue.Disagree`: one of the catalogues has the word as a function, or as a command, and the
  other has not.
* `AlikeBut`: the same fault, or the same tokens but for the kinds of such words.

Results:
* `kindOf_congr`: catalogues that agree on a word give it the same kind.
* `kindOf_eq_unresolved_iff`: a catalogue leaves unresolved what no catalogue would resolve and it
  does not have itself.
* `tokenize_catalogue`: lexing under two catalogues, and the words left over under one.
-/

namespace LayoutLex

open Text Scan

namespace Catalogue

/-- The catalogues say different things of the word. -/
def Disagree (c d : Catalogue) (word : String) : Prop :=
  c.isFunction word ≠ d.isFunction word ∨ c.isCommand word ≠ d.isCommand word

variable {c d : Catalogue} {word : String}

theorem kindOf_congr (hfunction : c.isFunction word = d.isFunction word)
    (hcommand : c.isCommand word = d.isCommand word) : c.kindOf word = d.kindOf word := by
  unfold kindOf isFunctionOnly isCommandOnly isBoth
  rw [hfunction, hcommand]

theorem disagree_of_kindOf_ne (h : c.kindOf word ≠ d.kindOf word) : Disagree c d word := by
  by_cases hfunction : c.isFunction word = d.isFunction word
  · exact Or.inr fun hcommand => h (kindOf_congr hfunction hcommand)
  · exact Or.inl hfunction

/-- What has a kind under the empty catalogue has it from the words of the language. -/
theorem kindOf_empty (word : String) :
    empty.kindOf word =
      if Operator.isOperator word then .operator
      else if Keyword.isFlow word then .flow
      else if Keyword.isReserved word then .keyword
      else .unresolved := by
  simp [kindOf, isFunctionOnly, isCommandOnly, isBoth, isFunction, isCommand, empty]

/-- A catalogue leaves a word unresolved exactly if it does not have the word and the language has
no kind for it either. -/
theorem kindOf_eq_unresolved_iff (c : Catalogue) (word : String) :
    c.kindOf word = .unresolved ↔
      empty.kindOf word = .unresolved ∧ c.isFunction word = false ∧ c.isCommand word = false := by
  rw [kindOf_empty]
  cases hfunction : c.isFunction word with
  | true =>
    cases hcommand : c.isCommand word with
    | true => simp [kindOf, isFunctionOnly, isCommandOnly, isBoth, hfunction, hcommand]
    | false => simp [kindOf, isFunctionOnly, hfunction, hcommand]
  | false =>
    cases hcommand : c.isCommand word with
    | true => simp [kindOf, isFunctionOnly, isCommandOnly, hfunction, hcommand]
    | false => simp [kindOf, isFunctionOnly, isCommandOnly, isBoth, hfunction, hcommand]

end Catalogue

/-! ## Tokens under two catalogues -/

/-- The tokens differ at most in kind, and only if the catalogues disagree on their text. -/
structure Token.AlikeBut (c d : Catalogue) (t u : Token) : Prop where
  text_eq : t.text = u.text
  span_eq : t.span = u.span
  of_kind_ne : t.kind ≠ u.kind → c.Disagree d t.text

/-- Lexing has ended alike under two catalogues: in the same fault, or in tokens one of which
differs from its counterpart at most in kind, and only if the catalogues disagree on its text. -/
inductive AlikeBut (c d : Catalogue) : Except Fault (List Token) → Except Fault (List Token) → Prop
  | fault (fault : Fault) : AlikeBut c d (.error fault) (.error fault)
  | tokens {ts us : List Token} (h : List.Forall₂ (Token.AlikeBut c d) ts us) :
      AlikeBut c d (.ok ts) (.ok us)

theorem alikeBut_classified (c d : Catalogue) (t : Token) :
    Token.AlikeBut c d (t.classified c) (t.classified d) := by
  obtain ⟨htext, hspan⟩ := Lexer.classified_text_span c t
  obtain ⟨htext', hspan'⟩ := Lexer.classified_text_span d t
  refine ⟨htext.trans htext'.symm, hspan.trans hspan'.symm, fun hne => ?_⟩
  rw [htext]
  by_cases hresolved : t.isResolved = true
  · rw [Token.classified, Token.classified, if_pos hresolved, if_pos hresolved] at hne
    exact absurd rfl hne
  · rw [Token.classified, Token.classified, if_neg hresolved, if_neg hresolved] at hne
    exact Catalogue.disagree_of_kindOf_ne hne

/-- A token stays without a kind exactly if it does so under the empty catalogue and the catalogue
does not have its text. -/
theorem isResolved_classified_iff (c : Catalogue) (t : Token) :
    (t.classified c).isResolved = false ↔
      (t.classified .empty).isResolved = false ∧ c.isFunction t.text = false ∧
        c.isCommand t.text = false := by
  by_cases hresolved : t.isResolved = true
  · rw [Token.classified, Token.classified, if_pos hresolved, if_pos hresolved, hresolved]
    simp
  · have hkind := Catalogue.kindOf_eq_unresolved_iff c t.text
    rw [Token.classified, Token.classified, if_neg hresolved, if_neg hresolved]
    simpa [Token.isResolved] using hkind

theorem mem_unresolvedTexts {tokens : List Token} {name : String} :
    name ∈ Token.unresolvedTexts tokens ↔ ∃ t ∈ tokens, t.isResolved = false ∧ t.text = name := by
  simp [Token.unresolvedTexts, and_assoc]

/-- The words left over under a catalogue are those left over under the empty one that the
catalogue does not have. -/
theorem mem_unresolvedTexts_classified (c : Catalogue) (tokens : List Token) (name : String) :
    name ∈ Token.unresolvedTexts (tokens.map (Token.classified c)) ↔
      name ∈ Token.unresolvedTexts (tokens.map (Token.classified .empty)) ∧
        c.isFunction name = false ∧ c.isCommand name = false := by
  have htext := fun (c : Catalogue) t => (Lexer.classified_text_span c t).1
  rw [mem_unresolvedTexts, mem_unresolvedTexts]
  constructor
  · rintro ⟨_, hmem, hres, rfl⟩
    obtain ⟨t, ht, rfl⟩ := List.mem_map.mp hmem
    obtain ⟨hempty, hnot⟩ := (isResolved_classified_iff c t).mp hres
    rw [htext]
    exact ⟨⟨_, List.mem_map_of_mem ht, hempty, htext .empty t⟩, hnot⟩
  · rintro ⟨⟨_, hmem, hempty, rfl⟩, hnot⟩
    obtain ⟨t, ht, rfl⟩ := List.mem_map.mp hmem
    rw [htext] at hnot ⊢
    exact ⟨_, List.mem_map_of_mem ht, (isResolved_classified_iff c t).mpr ⟨hempty, hnot⟩, htext c t⟩

namespace Lexer

/-- Two lexers that differ in the catalogue alone end alike. -/
theorem alikeBut_lex (c d : Catalogue) (spacing : Spacing) (text : List Char) (file : String) :
    AlikeBut c d (lex ⟨c, spacing⟩ text file) (lex ⟨d, spacing⟩ text file) := by
  rw [lex_eq, lex_eq]
  cases (segments text).fault? file 0 with
  | some fault => exact .fault fault
  | none =>
    refine .tokens ?_
    rw [List.forall₂_map_left_iff, List.forall₂_map_right_iff, List.forall₂_same]
    exact fun t _ => alikeBut_classified c d t

theorem mem_unresolvedInLine (c : Catalogue) (spacing : Spacing) (file : String) (line : List Char)
    (name : String) :
    name ∈ unresolvedInLine ⟨c, spacing⟩ file line ↔
      name ∈ unresolvedInLine ⟨.empty, spacing⟩ file line ∧
        c.isFunction name = false ∧ c.isCommand name = false := by
  unfold unresolvedInLine
  rw [lex_eq, lex_eq]
  cases (segments line).fault? file 0 with
  | some fault => simp
  | none => exact mem_unresolvedTexts_classified c _ name

/-- **The catalogue only classifies.** Under two catalogues a source has the same fault, or the same
tokens but for the kinds of words on which the catalogues disagree. The words of a text that are
left over under a catalogue are those left over under the empty one less its functions and
commands. -/
theorem tokenize_catalogue (c d : Catalogue) (spacing : Spacing) (file? : Option String) :
    (∀ source, AlikeBut c d (tokenize ⟨c, spacing⟩ source file?)
      (tokenize ⟨d, spacing⟩ source file?)) ∧
    ∀ text, unresolvedSymbols ⟨c, spacing⟩ text file? =
      (unresolvedSymbols ⟨.empty, spacing⟩ text file?).filter fun name =>
        !c.isFunction name && !c.isCommand name := by
  refine ⟨fun source => alikeBut_lex c d spacing source.toList _, fun text => ?_⟩
  ext name
  simp only [unresolvedSymbols, NameSet.mem_ofList, NameSet.mem_filter, List.mem_flatMap,
    Bool.and_eq_true, Bool.not_eq_true']
  constructor
  · rintro ⟨line, hline, hname⟩
    obtain ⟨hempty, hnot⟩ := (mem_unresolvedInLine c spacing _ line name).mp hname
    exact ⟨⟨line, hline, hempty⟩, hnot⟩
  · rintro ⟨⟨line, hline, hempty⟩, hnot⟩
    exact ⟨line, hline, (mem_unresolvedInLine c spacing _ line name).mpr ⟨hempty, hnot⟩⟩

end Lexer

end LayoutLex
