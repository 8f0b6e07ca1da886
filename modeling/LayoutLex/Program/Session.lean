import LayoutLex.Fault.Excerpt
import LayoutLex.Program.Listing
import LayoutLex.Source.Line

/-!
# Sessions

A session lexes lines as they are entered. It writes a prompt before it pulls a line, answers every
line that is not empty and ends, after one last prompt, when no line is left.

* Input ends with the first line that is not UTF-8.
* A line loses its line feed and a carriage return before that when it is read, and all line breaks
  at its end when it is answered.
-/

namespace LayoutLex

/-- Reading what is at hand takes all of it. -/
theorem LineSource.remaining_rest {s : LineSource} {text : List Char}
    (h : s.rest?.1 = some text) : s.rest?.2.remaining < s.remaining := by
  unfold rest? at h ⊢
  split at h
  · cases h
  · next r hr =>
    unfold ready at hr
    by_cases hlt : s.position < s.buffer.size
    · rw [if_pos hlt] at hr
      cases hr
      simp only [remaining]
      omega
    · rw [if_neg hlt] at hr
      cases hwaiting : s.waiting with
      | nil =>
        rw [pull_of_nil hwaiting] at hr
        cases hr
      | cons line lines =>
        rw [pull_of_cons hwaiting] at hr
        cases hr
        simp only [remaining, feed, hwaiting, List.flatMap_cons, lineBytes, List.length_append,
          List.length_cons]
        omega

namespace Program

/-- What is written before a line is pulled. -/
def prompt : String := "> "

/-- The answer to a line. -/
def answer (lexer : Lexer) (entered : List Char) : String :=
  let line := Text.dropBreaks entered
  if line.isEmpty then ""
  else
    match lexer.lex line Lexer.defaultFile with
    | .ok tokens => listing tokens
    | .error fault => fault.render (String.ofList line)

/-- What a session writes: each prompt, with the answer to the line that is entered after it. -/
def exchanges (lexer : Lexer) (lines : LineSource) : List String :=
  match _entered : lines.rest?.1 with
  | none => [prompt]
  | some text => (prompt ++ answer lexer text) :: exchanges lexer lines.rest?.2
termination_by lines.remaining
decreasing_by exact LineSource.remaining_rest _entered

/-- All that a session writes. -/
def session (lexer : Lexer) (lines : LineSource) : String :=
  String.join (exchanges lexer lines)

/-- The lines of some records of input, up to the first that is not UTF-8. -/
def readableLines : List (List UInt8) → List (List Char)
  | [] => []
  | record :: records =>
    match Text.decode? record with
    | none => []
    | some line => Text.dropLineEnd line :: readableLines records

/-- The lines of some input. -/
def inputLines (input : List UInt8) : List (List Char) :=
  readableLines (Text.terminated (· == 0x0A) input)

end Program

end LayoutLex
