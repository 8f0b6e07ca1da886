import LayoutLex.Program.Command
import LayoutLex.Proofs.Bytes
import LayoutLex.Proofs.Decoding
import LayoutLex.Proofs.Lines
import LayoutLex.Proofs.Pulling
import Mathlib.Data.List.DropRight

/-!
# A session answers each line once

All of a session is read through one source, which keeps the lines it has pulled and gives whatever
is at hand. What makes it give one line at a time is that nothing is at hand when a prompt is
written (`Spent`): then exactly one line is pulled, and reading it leaves nothing at hand again.

* `Entered` relates the bytes of some input to its lines: each ends with a line feed, or a carriage
  return and a line feed, which do not belong to it; the last may end without; a line that is not
  UTF-8 ends the input.
* `reply` is what is written for a line after its prompt.

Results:
* `exchanges_of_spent`: from a source with nothing at hand, a session goes on with one exchange for
  each line to come.
* `session_records`: a session goes on record by record.
* `entered_iff`: the lines of some input are those that the program finds.
* `run_converse`: what a run over the standard input writes and how it ends.
-/

namespace LayoutLex

open Text

/-! ## Reading a line -/

namespace LineSource

variable {s : LineSource}

theorem rest?_of_spent_nil (h : s.Spent) (hwaiting : s.waiting = []) : s.rest?.1 = none := by
  rw [rest?, ready_of_spent h, pull_of_nil hwaiting]

/-- **One line is pulled and read**, and nothing is at hand after it. -/
theorem rest?_of_spent_cons (h : s.Spent) {line : List Char} {lines : List (List Char)}
    (hwaiting : s.waiting = line :: lines) :
    s.rest?.1 = some (line ++ ['\n']) ∧ s.rest?.2.waiting = lines ∧ s.rest?.2.Spent := by
  rw [rest?, ready_of_spent h, pull_of_cons hwaiting]
  refine ⟨?_, rfl, rfl⟩
  have hbytes : ((s.feed line lines).buffer.extract (s.feed line lines).position).toList =
      lineBytes line := by
    rw [Spent] at h
    simp [feed, h]
  dsimp only
  rw [hbytes, lineBytes_eq, decodeLossy_encode]

end LineSource

namespace Program

/-! ## Exchanges -/

/-- What is written for a line after its prompt: nothing if nothing is left of it without the line
breaks at its end, otherwise its tokens or its fault. -/
def reply (lexer : Lexer) (line : List Char) : String :=
  match line.rdropWhile isBreak with
  | [] => ""
  | c :: cs =>
    let source := String.ofList (c :: cs)
    match lexer.tokenize source none with
    | .ok tokens => String.join (tokens.map tokenLine)
    | .error fault => fault.render source

theorem answer_eq (lexer : Lexer) (line : List Char) : answer lexer line = reply lexer line := by
  have htrimmed : dropBreaks line = line.rdropWhile isBreak := rfl
  unfold answer reply
  rw [htrimmed]
  cases line.rdropWhile isBreak with
  | nil => rfl
  | cons c cs =>
    simp only [Lexer.tokenize, String.toList_ofList, Option.getD_none, List.isEmpty_cons]
    rfl

/-- The line feed that a source adds makes no difference. -/
theorem reply_concat (lexer : Lexer) (line : List Char) :
    reply lexer (line ++ ['\n']) = reply lexer line := by
  have hbreak : isBreak '\n' = true := rfl
  rw [reply, List.rdropWhile_concat_pos _ _ _ hbreak, ← reply]

/-- **A session goes on with one exchange for each line to come**, whatever it has read before. -/
theorem exchanges_of_spent (lexer : Lexer) {s : LineSource} (h : s.Spent) :
    exchanges lexer s = (s.waiting.map fun line => prompt ++ reply lexer line) ++ [prompt] := by
  generalize hwaiting : s.waiting = lines
  induction lines generalizing s with
  | nil =>
    have hrest := LineSource.rest?_of_spent_nil h hwaiting
    rw [exchanges]
    split
    · rfl
    · next hentered =>
      rw [hrest] at hentered
      cases hentered
  | cons line lines ih =>
    obtain ⟨htext, hwaiting, hspent⟩ := LineSource.rest?_of_spent_cons h hwaiting
    rw [exchanges]
    split
    · next hentered =>
      rw [htext] at hentered
      cases hentered
    · next text hentered =>
      rw [htext] at hentered
      cases hentered
      rw [ih hspent hwaiting, answer_eq, reply_concat, List.map_cons, List.cons_append]

theorem session_ofLines (lexer : Lexer) (lines : List (List Char)) :
    session lexer (.ofLines lines) =
      String.join (lines.map fun line => prompt ++ reply lexer line) ++ prompt := by
  have hspent : (LineSource.ofLines lines).Spent := rfl
  rw [session, exchanges_of_spent lexer hspent, String.join_append]
  simp [LineSource.ofLines]

/-- **A session goes on record by record.** What it writes for a record, and whether it ends there,
does not depend on the records that follow, so it can be held while they are entered. -/
theorem session_records (lexer : Lexer) (records : List (List UInt8)) :
    session lexer (.ofLines (readableLines records)) =
      match records with
      | [] => prompt
      | record :: records =>
        match decode? record with
        | none => prompt
        | some line =>
          prompt ++ answer lexer (dropLineEnd line) ++
            session lexer (.ofLines (readableLines records)) := by
  cases records with
  | nil => exact session_ofLines lexer []
  | cons record records =>
    dsimp only [readableLines]
    cases decode? record with
    | none => exact session_ofLines lexer []
    | some line =>
      dsimp only
      rw [session_ofLines, session_ofLines, List.map_cons, String.join_cons, answer_eq,
        String.append_assoc]

end Program

/-! ## The lines of some input -/

namespace Text

theorem dropLineEnd_crlf (line : List Char) : dropLineEnd (line ++ ['\r', '\n']) = line := by
  simp [dropLineEnd]

theorem dropLineEnd_lf {line : List Char} (h : line.getLast? ≠ some '\r') :
    dropLineEnd (line ++ ['\n']) = line := by
  rw [dropLineEnd, List.reverse_append, List.reverse_singleton, List.singleton_append]
  rw [← List.head?_reverse] at h
  split
  · next r heq =>
    rw [(List.cons.inj heq).2] at h
    exact absurd rfl h
  · next r _ heq => rw [← (List.cons.inj heq).2, List.reverse_reverse]
  · next hne => exact absurd rfl (hne line.reverse)

theorem dropLineEnd_of_not_mem {line : List Char} (h : '\n' ∉ line) : dropLineEnd line = line := by
  rw [dropLineEnd]
  split
  · next r heq => exact absurd (List.mem_reverse.mp (heq ▸ List.mem_cons_self)) h
  · next r _ heq => exact absurd (List.mem_reverse.mp (heq ▸ List.mem_cons_self)) h
  · rfl

end Text

namespace Program

/-- The lines of some input, up to the first that is not UTF-8. -/
inductive Entered : List UInt8 → List (List Char) → Prop
  | nil : Entered [] []
  /-- A carriage return before the line feed belongs to the end of the line. -/
  | crlf {line : List Char} {rest : List UInt8} {lines : List (List Char)} (hline : '\n' ∉ line)
      (hrest : Entered rest lines) : Entered (encode (line ++ ['\r', '\n']) ++ rest) (line :: lines)
  | lf {line : List Char} {rest : List UInt8} {lines : List (List Char)} (hline : '\n' ∉ line)
      (hend : line.getLast? ≠ some '\r') (hrest : Entered rest lines) :
      Entered (encode (line ++ ['\n']) ++ rest) (line :: lines)
  /-- The last line may have no end. -/
  | last {line : List Char} (hline : '\n' ∉ line) (hne : line ≠ []) : Entered (encode line) [line]
  | unreadable {record rest : List UInt8} (hrecord : 0x0A ∉ record)
      (hrest : rest = [] ∨ rest.head? = some 0x0A) (hbad : ∀ text, record ≠ encode text) :
      Entered (record ++ rest) []

theorem not_lineFeed {record : List UInt8} (h : 0x0A ∉ record) :
    ∀ b ∈ record, (b == 0x0A) = false := by
  intro b hb
  rw [beq_eq_false_iff_ne]
  rintro rfl
  exact h hb

theorem encode_lineFeed (line : List Char) : encode (line ++ ['\n']) = encode line ++ [0x0A] :=
  encode_append line ['\n']

theorem inputLines_append {line : List Char} (h : '\n' ∉ line) (rest : List UInt8) :
    inputLines (encode (line ++ ['\n']) ++ rest) =
      dropLineEnd (line ++ ['\n']) :: inputLines rest := by
  have hrecord := not_lineFeed (not_mem_encode (d := '\n') (by decide) h)
  rw [inputLines, encode_lineFeed, List.append_assoc, List.singleton_append,
    terminated_append hrecord rfl, ← encode_lineFeed, readableLines, decode?_encode]
  rfl

/-- **The program finds the lines of its input.** -/
theorem inputLines_of_entered {input : List UInt8} {lines : List (List Char)}
    (h : Entered input lines) : inputLines input = lines := by
  induction h with
  | nil => rfl
  | @crlf line rest lines hline hrest ih =>
    have hmore : '\n' ∉ line ++ ['\r'] := by simpa using hline
    rw [List.append_cons, inputLines_append hmore, ih, ← List.append_cons, dropLineEnd_crlf]
  | @lf line rest lines hline hend hrest ih =>
    rw [inputLines_append hline, ih, dropLineEnd_lf hend]
  | @last line hline hne =>
    have hbytes : encode line ≠ [] := by
      rw [← List.length_pos_iff, length_encode]
      exact byteLength_pos hne
    rw [inputLines, terminated_of_not_mem (not_lineFeed (not_mem_encode (by decide) hline)) hbytes,
      readableLines, decode?_encode]
    exact congrArg ([·]) (dropLineEnd_of_not_mem hline)
  | @unreadable record rest hrecord hrest hbad =>
    have hne : record ≠ [] := hbad []
    rcases hrest with rfl | hhead
    · rw [List.append_nil, inputLines, terminated_of_not_mem (not_lineFeed hrecord) hne,
        readableLines, decode?_eq_none_iff.mpr hbad]
    · obtain ⟨tail, rfl⟩ := List.head?_eq_some_iff.mp hhead
      have hended : decode? (record ++ [0x0A]) = none := by
        refine decode?_eq_none_iff.mpr fun text htext => ?_
        have hfeed : '\n'.toNat < 128 := by decide
        obtain ⟨init, -, hinit⟩ := encode_eq_concat hfeed htext.symm
        exact hbad init hinit.symm
      rw [inputLines, terminated_append (not_lineFeed hrecord) rfl, readableLines, hended]

/-- **Any input has lines.** -/
theorem exists_entered (input : List UInt8) : ∃ lines, Entered input lines := by
  induction hlength : input.length using Nat.strong_induction_on generalizing input with
  | _ n ih =>
    by_cases hfeed : 0x0A ∈ input
    · obtain ⟨record, rest, rfl, hrecord⟩ := List.eq_append_cons_of_mem hfeed
      by_cases htext : ∃ text, record = encode text
      · obtain ⟨text, rfl⟩ := htext
        have hline : '\n' ∉ text := fun hmem => hrecord (mem_encode (by decide) hmem)
        have hshorter : rest.length < n := by
          rw [← hlength, List.length_append, List.length_cons]
          omega
        obtain ⟨lines, hlines⟩ := ih rest.length hshorter rest rfl
        by_cases hend : text.getLast? = some '\r'
        · obtain ⟨line, rfl⟩ := List.getLast?_eq_some_iff.mp hend
          rw [List.append_cons, ← encode_lineFeed, ← List.append_cons]
          exact ⟨_, .crlf (fun hmem => hline (List.mem_append_left _ hmem)) hlines⟩
        · rw [List.append_cons, ← encode_lineFeed]
          exact ⟨_, .lf hline hend hlines⟩
      · exact ⟨_, .unreadable hrecord (Or.inr rfl) fun text heq => htext ⟨text, heq⟩⟩
    · by_cases htext : ∃ text, input = encode text
      · obtain ⟨text, rfl⟩ := htext
        by_cases hne : text = []
        · rw [hne]
          exact ⟨_, .nil⟩
        · exact ⟨_, .last (fun hmem => hfeed (mem_encode (by decide) hmem)) hne⟩
      · rw [← List.append_nil input]
        exact ⟨_, .unreadable hfeed (Or.inl rfl) fun text heq => htext ⟨text, heq⟩⟩

/-- **The lines of some input are those that the program finds.** -/
theorem entered_iff {input : List UInt8} {lines : List (List Char)} :
    Entered input lines ↔ inputLines input = lines := by
  refine ⟨inputLines_of_entered, fun h => ?_⟩
  obtain ⟨found, hfound⟩ := exists_entered input
  rwa [← h, inputLines_of_entered hfound]

/-- **A session handles each line of its input once.** When the catalogue can be had, the input has
lines in one way only, and the run writes a prompt and a reply for each of them in their order and
one more prompt. It ends well whatever lines are faulty. -/
theorem run_converse {catalogue? : Option Document} {c : Catalogue}
    (hload : loadCatalogue catalogue? = .ok c) (input : List UInt8) (noSpaces : Bool)
    (setting? : Option String) :
    let request : Request := ⟨.converse input, catalogue?, noSpaces, setting?⟩
    let lexer : Lexer := ⟨c, request.spacing⟩
    ∃ lines, (∀ other, Entered input other ↔ other = lines) ∧
      run request =
        ⟨String.join (lines.map fun line => "> " ++ reply lexer line) ++ "> ", "", 0⟩ := by
  intro request lexer
  refine ⟨inputLines input, fun other => entered_iff.trans eq_comm, ?_⟩
  have hrun : run request = .success (session lexer (.ofLines (inputLines input))) := by
    unfold run
    rw [hload]
  rw [hrun, session_ofLines]
  rfl

/-- An empty line gets no reply, a faulty one does not end the session and one that is not UTF-8
does. -/
theorem run_converse_unreadable :
    let input := encode "A\r\n\nM:=\"x\n".toList ++ [0x42, 0xFF, 0x0A] ++ encode "C".toList
    loadCatalogue none = .ok .empty ∧
      Entered input ["A".toList, "".toList, "M:=\"x".toList] ∧
      run ⟨.converse input, none, false, none⟩ =
        ⟨"> " ++ "    #<:UNRESOLVED 'A'> [0..1]\n" ++ "> " ++
          "> " ++ "Error: UnterminatedLiteral (Missing closing `\"`)\n-> shell\n" ++
          "  |\n1 | M:=\"x\n  | ----^\n" ++ "> ", "", 0⟩ := by
  intro input
  have hload : loadCatalogue none = .ok .empty := rfl
  obtain ⟨lines, hlines, hrun⟩ := run_converse hload input false none
  have hfound : inputLines input = ["A".toList, "".toList, "M:=\"x".toList] := by decide +kernel
  have hentered := entered_iff.mpr hfound
  refine ⟨hload, hentered, hrun.trans ?_⟩
  rw [← (hlines _).mp hentered]
  decide +kernel

end Program

end LayoutLex
