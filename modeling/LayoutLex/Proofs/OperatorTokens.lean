import LayoutLex.Proofs.Lexemes
import LayoutLex.Proofs.Lexing

/-!
# Operator tokens and the table of operators

A token gets the kind of an operator in four ways: as a pair of delimiters or the first character of
one, as a sign, as a delimiter that the table lists, or as a word of the table when it is
classified. All of them look the text up, or take it from a list whose members are in the table,
except the first character of a pair: a colon that no equals sign follows is an operator although
the table has no such entry.

`Listed` carries this through the lexer, one lemma for each of its functions.

Results:
* `listed_lexeme`: the kind of a lexeme.
* `Lexer.tokenize_operators_listed`: the operators among the tokens of a source have entries, and so
  precedences, unless they are colons.
-/

namespace LayoutLex

open Text Scan

/-- A text of this kind, if it is an operator, has an entry in the table or is a colon. -/
def Listed (kind : TokenKind) (text : String) : Prop :=
  kind.isOperator = true →
    Operator.isOperator text = true ∨ (kind = .operator ∧ text = ":")

theorem listed_of_not_isOperator {kind : TokenKind} {text : String}
    (h : kind.isOperator = false) : Listed kind text := by
  intro hkind
  rw [h] at hkind
  cases hkind

/-! ## The lists of characters -/

theorem isOperator_of_mem_pairs {c next : Char} (h : (c, next) ∈ pairs) :
    Operator.isOperator (String.ofList [c, next]) = true := by
  have hall : ∀ pair ∈ pairs, Operator.isOperator (String.ofList [pair.1, pair.2]) = true := by
    decide
  exact hall _ h

theorem isOperator_of_isPairStart {c : Char} (h : isPairStart c = true) :
    Operator.isOperator (String.singleton c) = true ∨ c = ':' := by
  have hall : ∀ pair ∈ pairs,
      Operator.isOperator (String.singleton pair.1) = true ∨ pair.1 = ':' := by
    decide
  obtain ⟨pair, hpair, hc⟩ := List.any_eq_true.mp h
  rw [← beq_iff_eq.mp hc]
  exact hall pair hpair

theorem isOperator_of_isSign {c : Char} (h : isSign c = true) :
    Operator.isOperator (String.singleton c) = true := by
  simp only [isSign, Bool.or_eq_true, beq_iff_eq] at h
  rcases h with rfl | rfl
  · decide
  · decide

/-- No operator has a blank at its ends. -/
theorem trim_of_isOperator {cs : List Char} (h : Operator.isOperator (String.ofList cs) = true) :
    trim cs = cs := by
  have hall : ∀ op ∈ Operator.table, trim op.name.toList = op.name.toList := by decide
  obtain ⟨op, hop, hname⟩ := List.any_eq_true.mp h
  have htext := hall op hop
  rwa [beq_iff_eq.mp hname, String.toList_ofList] at htext

/-! ## The scans -/

/-- The kind of a delimiter that is no sign is that of its entry, with a colon for an exception. -/
theorem delimiterKind_cases (c next : Char) :
    isSign c = true ∨ c = ':' ∨ delimiterKind c next = .unresolved ∨
      (delimiterKind c next = .operator ∧ Operator.isOperator (String.singleton c) = true) := by
  unfold delimiterKind
  split
  · next hstart =>
    rcases isOperator_of_isPairStart hstart with hlisted | rfl
    · exact Or.inr (Or.inr (Or.inr ⟨rfl, hlisted⟩))
    · exact Or.inr (Or.inl rfl)
  split
  · next hsign => exact Or.inl hsign
  split
  · next hlisted => exact Or.inr (Or.inr (Or.inr ⟨rfl, hlisted⟩))
  · exact Or.inr (Or.inr (Or.inl rfl))

theorem listed_delimiterKind (c next : Char) :
    Listed (delimiterKind c next) (String.singleton c) := by
  intro hkind
  rcases delimiterKind_cases c next with hsign | rfl | hunresolved | ⟨-, hlisted⟩
  · exact Or.inl (isOperator_of_isSign hsign)
  · exact Or.inr ⟨rfl, rfl⟩
  · rw [hunresolved] at hkind
    cases hkind
  · exact Or.inl hlisted

theorem listed_delimiter (c : Char) (cs : List Char) :
    Listed (delimiter c cs).1.kind (String.ofList (delimiter c cs).1.text) := by
  cases cs with
  | nil => exact listed_of_not_isOperator rfl
  | cons next rest =>
    rw [delimiter]
    split
    · next hpair => exact fun _ => Or.inl (isOperator_of_mem_pairs (List.contains_iff_mem.mp hpair))
    · exact listed_delimiterKind c next

theorem kind_number (word : List Char) :
    (number word).kind = .number ∨ (number word).kind = .badNumber := by
  unfold number
  split
  · exact Or.inl rfl
  · exact Or.inr rfl

/-- **A lexeme that is an operator has an entry in the table or is a colon.** -/
theorem listed_lexeme (c : Char) (cs : List Char) :
    Listed (lexeme c cs).1.kind (String.ofList (lexeme c cs).1.text) := by
  unfold lexeme
  split
  · exact listed_of_not_isOperator rfl
  split
  · exact listed_of_not_isOperator rfl
  split
  · rcases kind_number (c :: numberTail c cs) with hkind | hkind
    · exact listed_of_not_isOperator (hkind ▸ rfl)
    · exact listed_of_not_isOperator (hkind ▸ rfl)
  split
  · exact listed_delimiter c cs
  · exact listed_of_not_isOperator (kind_other c cs ▸ rfl)

theorem listed_lexemes (cs : List Char) :
    ∀ piece ∈ lexemes cs, Listed piece.kind (String.ofList piece.text) := by
  fun_induction lexemes cs with
  | case1 => exact fun piece hpiece => absurd hpiece List.not_mem_nil
  | case2 c cs ih =>
    intro piece hpiece
    rcases List.mem_cons.mp hpiece with rfl | hpiece
    · exact listed_lexeme c cs
    · exact ih piece hpiece

/-- No segment is an operator. -/
theorem not_isOperator_of_mem_segments (cs : List Char) :
    ∀ piece ∈ (segments cs).pieces, piece.kind.isOperator = false := by
  have hquoted : ∀ c, (quotedKind c).isOperator = false := by
    intro c
    unfold quotedKind
    split
    · rfl
    · rfl
  fun_induction segments cs with
  | case1 => exact fun piece hpiece => absurd hpiece List.not_mem_nil
  | case2 c cs _ ih => exact List.forall_mem_cons.mpr ⟨rfl, ih⟩
  | case3 => exact fun piece hpiece => absurd hpiece List.not_mem_nil
  | case4 c cs _ _ body rest _ ih => exact List.forall_mem_cons.mpr ⟨hquoted c, ih⟩
  | case5 c cs _ _ ih => exact List.forall_mem_cons.mpr ⟨rfl, ih⟩

/-! ## The tokens -/

/-- Losing blanks makes no difference to what the table lists. -/
theorem listed_cut {kind : TokenKind} {cs : List Char} (h : Listed kind (String.ofList cs))
    (spacing : Spacing) : Listed kind (String.ofList (spacing.cut cs).2) := by
  cases spacing with
  | keep => exact h
  | drop =>
    intro hkind
    rcases h hkind with hlisted | ⟨hoperator, hcolon⟩
    · left
      rwa [Spacing.cut, trim_of_isOperator hlisted]
    · right
      have htext : cs = [':'] := by
        rw [← String.toList_ofList (l := cs), hcolon]
        rfl
      rw [htext]
      exact ⟨hoperator, rfl⟩

namespace Lexer

theorem listed_of_mem_parts {spacing : Spacing} {segment : Token}
    (h : segment.kind.isOperator = false) :
    ∀ t ∈ parts spacing segment, Listed t.kind t.text := by
  unfold parts
  split
  · rw [List.forall_mem_singleton]
    exact listed_of_not_isOperator h
  · intro t ht
    obtain ⟨piece, hpiece, hkind, htext⟩ := exists_piece_of_mem_place ht
    rw [hkind, htext]
    exact listed_cut (listed_lexemes _ piece hpiece) spacing

/-- A word is classified as an operator only if the table has it. -/
theorem listed_kindOf (c : Catalogue) (word : String) : Listed (c.kindOf word) word := by
  intro hkind
  unfold Catalogue.kindOf at hkind
  split at hkind
  · cases hkind
  split at hkind
  · cases hkind
  split at hkind
  · cases hkind
  split at hkind
  · next hlisted => exact Or.inl hlisted
  split at hkind
  · cases hkind
  split at hkind
  · cases hkind
  · cases hkind

theorem listed_classified (c : Catalogue) {t : Token} (h : Listed t.kind t.text) :
    Listed (t.classified c).kind (t.classified c).text := by
  unfold Token.classified
  split
  · exact h
  · exact listed_kindOf c t.text

/-- The operators among the tokens of a source have entries in the table or are colons. -/
theorem listed_of_lex {lexer : Lexer} {text : List Char} {file : String} {tokens : List Token}
    (h : lexer.lex text file = .ok tokens) : ∀ t ∈ tokens, Listed t.kind t.text := by
  rw [lex_eq] at h
  split at h
  · cases h
  · cases h
    intro t ht
    obtain ⟨part, hpart, rfl⟩ := List.mem_map.mp ht
    obtain ⟨segment, hsegment, hpart⟩ := List.mem_flatMap.mp hpart
    have hkind : segment.kind.isOperator = false := by
      obtain ⟨piece, hpiece, heq, -⟩ := exists_piece_of_mem_place hsegment
      rw [heq]
      exact not_isOperator_of_mem_segments text piece hpiece
    exact listed_classified lexer.catalogue (listed_of_mem_parts hkind part hpart)

/-- **An operator has precedences unless it is a colon.** Of the tokens of a source those that are
operators by their kind and are no colon have entries in the table, and their precedences are those
of the entries, in the order of the table. A colon is an operator too, of the kind without a number
of operands, but the table has no entry for it. -/
theorem tokenize_operators_listed {lexer : Lexer} {source : String} {file? : Option String}
    {tokens : List Token} (h : lexer.tokenize source file? = .ok tokens) :
    ∀ t ∈ tokens, t.isOperator = true →
      (t.text ≠ ":" → Operator.isOperator t.text = true ∧
        t.precedences = (Operator.table.filter (·.name == t.text)).map (·.precedence) ∧
        t.precedences ≠ []) ∧
      (t.text = ":" → t.kind = .operator ∧ Operator.isOperator t.text = false ∧
        t.precedences = []) := by
  intro t ht hoperator
  have hprecedences : t.precedences = Operator.precedences t.text := if_pos hoperator
  have hcolon : Operator.isOperator ":" = false := by decide
  rw [hprecedences]
  rcases listed_of_lex h t ht hoperator with hlisted | ⟨hkind, htext⟩
  · refine ⟨fun _ => ⟨hlisted, rfl, ?_⟩, fun htext => ?_⟩
    · rw [Operator.precedences, Ne, List.map_eq_nil_iff]
      exact Operator.isOperator_iff.mp hlisted
    · rw [htext, hcolon] at hlisted
      cases hlisted
  · refine ⟨fun hne => absurd htext hne, fun _ => ⟨hkind, ?_⟩⟩
    rw [htext]
    exact ⟨hcolon, by decide⟩

theorem tokenize_operators_listed_assignment :
    let colon : Token := ⟨.operator, ":", ⟨0, "shell"⟩, ⟨1, "shell"⟩⟩
    let assignment : Token := ⟨.operator, ":=", ⟨2, "shell"⟩, ⟨4, "shell"⟩⟩
    let tokens : List Token :=
      [colon, ⟨.unresolved, "A", ⟨1, "shell"⟩, ⟨2, "shell"⟩⟩, assignment,
        ⟨.number, "1", ⟨4, "shell"⟩, ⟨5, "shell"⟩⟩]
    tokenize ⟨.empty, .keep⟩ ":A:=1" none = .ok tokens ∧ assignment.precedences = [0] ∧
      colon.precedences = [] := by
  intro colon assignment tokens
  have h : tokenize ⟨.empty, .keep⟩ ":A:=1" none = .ok tokens :=
    eq_ok_of_toOption_eq_some (by decide +kernel)
  have hassignment := (tokenize_operators_listed h assignment (by decide) rfl).1 (by decide)
  have hcolon := (tokenize_operators_listed h colon (by decide) rfl).2 rfl
  exact ⟨h, hassignment.2.1.trans (by decide), hcolon.2.2⟩

/-- A colon before a name is an operator without an entry. -/
theorem not_tokenize_operators_isOperator :
    ¬ ∀ (lexer : Lexer) (source : String) (file? : Option String) (tokens : List Token),
      lexer.tokenize source file? = .ok tokens → ∀ t ∈ tokens, t.isOperator = true →
        Operator.isOperator t.text = true ∧ t.precedences ≠ [] := by
  intro hall
  have h : tokenize ⟨.empty, .keep⟩ ":A" none =
      .ok [⟨.operator, ":", ⟨0, "shell"⟩, ⟨1, "shell"⟩⟩,
        ⟨.unresolved, "A", ⟨1, "shell"⟩, ⟨2, "shell"⟩⟩] :=
    eq_ok_of_toOption_eq_some (by decide +kernel)
  obtain ⟨hlisted, -⟩ := hall _ _ _ _ h _ List.mem_cons_self rfl
  exact absurd hlisted (by decide)

end Lexer

end LayoutLex
