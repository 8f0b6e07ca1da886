import LayoutLex.Fault.Excerpt
import LayoutLex.Program.Listing

/-!
# The report on a file

Each non-empty line of a file is lexed by itself, so all positions count from the start of its
line. The report shows every line as it stands, the texts of its tokens put together again and the
tokens, or the fault; at the end it names the words of the whole file that nothing could classify.
-/

namespace LayoutLex.Program

/-- What has been reported so far. -/
structure Report where
  text : String
  failed : Nat
  symbols : NameSet

namespace Report

/-- The report on no line. -/
def empty : Report := ⟨"", 0, .empty⟩

/-- The report on a line whose tokens are known. -/
def tokensBlock (tokens : List Token) : String :=
  "AFTER: " ++ String.join (tokens.map (·.text)) ++ "\n" ++ listing tokens

/-- The report with one more line. -/
def addLine (lexer : Lexer) (file : String) (report : Report) (line : List Char) : Report :=
  let source := String.ofList line
  let text := report.text ++ "ORIG : " ++ source ++ "\n"
  match lexer.lex line file with
  | .ok tokens =>
    { report with
      text := text ++ tokensBlock tokens
      symbols := report.symbols.insertAll (Token.unresolvedTexts tokens) }
  | .error fault =>
    { report with text := text ++ fault.render source, failed := report.failed + 1 }

/-- The line that names what nothing could classify. -/
def symbolsLine (symbols : NameSet) : String :=
  "UNRESOLVED: " ++ " ".intercalate symbols.names ++ "\n"

/-- The report on all lines of a source. -/
def ofSource (lexer : Lexer) (file : String) (source : List Char) : Report :=
  let report := (Text.sourceLines source).foldl (addLine lexer file) empty
  { report with text := report.text ++ symbolsLine report.symbols }

end Report

end LayoutLex.Program
