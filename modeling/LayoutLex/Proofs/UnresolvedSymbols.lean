import LayoutLex.Proofs.Classification
import LayoutLex.Proofs.FileReport
import LayoutLex.Proofs.MaximalRuns
import LayoutLex.Proofs.Unclosed

/-!
# The words left over in a text

The words that nothing could classify are looked for in each line of a text by itself. So a line
break cuts the text in two that have their own words, and a line that cannot be lexed takes none
from the others.

Results:
* `mem_unresolvedSymbols_iff`: a word left over is the text of a token of some line that can be
  lexed.
* `unresolvedSymbols_break`: what is left over in a text with a line break in it.
* `unresolvedSymbols_lines`: both, in increasing order.
-/

namespace LayoutLex

open Text Scan

theorem Token.mem_unresolvedTexts_iff {tokens : List Token} {name : String} :
    name ∈ unresolvedTexts tokens ↔ ∃ t ∈ tokens, t.kind = .unresolved ∧ t.text = name := by
  rw [mem_unresolvedTexts]
  simp [isResolved]

namespace Lexer

variable {lexer : Lexer} {text name : String} {file? : Option String}

/-- **A word left over in a text** is the text of a token, without a kind, of some line of it that
can be lexed. -/
theorem mem_unresolvedSymbols_iff :
    name ∈ lexer.unresolvedSymbols text file? ↔
      ∃ before line after tokens, text.toList = before ++ line ++ after ∧
        MaximalRun isBreak before line after ∧
        lexer.tokenize (String.ofList line) file? = .ok tokens ∧
        ∃ t ∈ tokens, t.kind = .unresolved ∧ t.text = name := by
  have hlines : name ∈ lexer.unresolvedSymbols text file? ↔
      ∃ line ∈ sourceLines text.toList, ∃ tokens,
        lexer.tokenize (String.ofList line) file? = .ok tokens ∧
          name ∈ Token.unresolvedTexts tokens := by
    have h := @mem_unresolvedSymbols lexer text.toList (file?.getD defaultFile) name
    rw [String.ofList_toList] at h
    exact h
  rw [hlines]
  simp only [sourceLines, mem_runs_iff, Token.mem_unresolvedTexts_iff]
  constructor
  · rintro ⟨line, ⟨before, after, htext, hrun⟩, tokens, h⟩
    exact ⟨before, line, after, tokens, htext, hrun, h⟩
  · rintro ⟨before, line, after, tokens, htext, hrun, h⟩
    exact ⟨line, ⟨before, after, htext, hrun⟩, tokens, h⟩

/-- **A line break cuts a text in two**, and what is left over is what is left over in either. -/
theorem unresolvedSymbols_break (lexer : Lexer) (file? : Option String) (a b : String) {c : Char}
    (hc : isBreak c = true) :
    lexer.unresolvedSymbols (a ++ String.singleton c ++ b) file? =
      (lexer.unresolvedSymbols a file?).union (lexer.unresolvedSymbols b file?) := by
  have hlines : sourceLines (a ++ String.singleton c ++ b).toList =
      sourceLines a.toList ++ sourceLines b.toList := by
    rw [String.toList_append, String.toList_append, String.toList_singleton, List.append_assoc,
      List.singleton_append, sourceLines, runs_append_cons hc]
    rfl
  ext name
  simp only [unresolvedSymbols, hlines, List.flatMap_append, NameSet.mem_union, NameSet.mem_ofList,
    List.mem_append]

/-- **What is left over in a text is put together from its lines.** A carriage return or a line feed
cuts a text in two: what is left over in the whole is what is left over in one part or in the other.
The names come in increasing order, each once, and they are the texts of the tokens without a kind
of all lines that can be lexed, whatever the other lines are. -/
theorem unresolvedSymbols_lines (lexer : Lexer) (file? : Option String) :
    (∀ (a b : String) (c : Char), c = '\r' ∨ c = '\n' →
      lexer.unresolvedSymbols (a ++ String.singleton c ++ b) file? =
        (lexer.unresolvedSymbols a file?).union (lexer.unresolvedSymbols b file?)) ∧
    ∀ text,
      (lexer.unresolvedSymbols text file?).names.Pairwise (· < ·) ∧
      ∀ name, name ∈ lexer.unresolvedSymbols text file? ↔
        ∃ before line after tokens, text.toList = before ++ line ++ after ∧
          MaximalRun isBreak before line after ∧
          lexer.tokenize (String.ofList line) file? = .ok tokens ∧
          ∃ t ∈ tokens, t.kind = .unresolved ∧ t.text = name :=
  ⟨fun a b _ hc => unresolvedSymbols_break lexer file? a b (isBreak_iff.mpr hc),
    fun _ => ⟨NameSet.sorted _, fun _ => mem_unresolvedSymbols_iff⟩⟩

theorem unresolvedSymbols_open_string :
    let lexer : Lexer := ⟨.empty, .drop⟩
    let upper := lexer.unresolvedSymbols "FOO\nB:=\"x" none
    let lower := lexer.unresolvedSymbols "BAR:=1 FOO" none
    upper.names = ["FOO"] ∧ lower.names = ["BAR", "FOO"] ∧
      lexer.unresolvedSymbols ("FOO\nB:=\"x" ++ String.singleton '\r' ++ "BAR:=1 FOO") none =
        upper.union lower := by
  intro lexer upper lower
  exact ⟨by decide +kernel, by decide +kernel,
    (unresolvedSymbols_lines lexer none).1 "FOO\nB:=\"x" "BAR:=1 FOO" '\r' (Or.inl rfl)⟩

end Lexer

end LayoutLex
