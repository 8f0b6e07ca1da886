import LayoutLex.Catalogue
import LayoutLex.Keyword
import LayoutLex.Scan.Scanner
import LayoutLex.Text.Lines

/-!
# The lexer

A source is split into segments, the code among them into lexemes, and what is left without a
kind gets one from the catalogue and the words of the language.

* `Catalogue.kindOf` decides for a word: the catalogue before the operators, those before the words
  of flow, and those before the other reserved words.
* A segment of code is replaced by its lexemes, each of which must lie within it. One without
  lexemes stays as it is.
* `unresolvedSymbols` collects the words of a text, line by line, that nothing could classify.
  Lines that are faulty count for nothing.
-/

namespace LayoutLex

open Scan

/-! ## Classification -/

/-- The kind of a word. -/
def Catalogue.kindOf (c : Catalogue) (word : String) : TokenKind :=
  if c.isFunctionOnly word then .function
  else if c.isCommandOnly word then .command
  else if c.isBoth word then .both
  else if Operator.isOperator word then .operator
  else if Keyword.isFlow word then .flow
  else if Keyword.isReserved word then .keyword
  else .unresolved

/-- The token with its final kind, if it has one. -/
def Token.classified (c : Catalogue) (t : Token) : Token :=
  if t.isResolved then t else { t with kind := c.kindOf t.text }

/-! ## Lexing -/

/-- What a source is lexed with. -/
structure Lexer where
  catalogue : Catalogue
  spacing : Spacing

namespace Lexer

/-- The name of a source that has none. -/
def defaultFile : String := "shell"

/-- The part lies within the token that it stands for in part. -/
def checkFit (whole part : Token) : Except Fault Token :=
  if whole.span.contains part.span then .ok part
  else .error ⟨.misfit whole.text, whole.span.start⟩

/-- The lexemes of a segment of code, if it has any; any other segment as it is. -/
def refine (lexer : Lexer) (segment : Token) : Except Fault (List Token) :=
  if segment.isResolved then .ok [segment]
  else
    let start := segment.span.start
    let parts := place lexer.spacing start.file start.offset (lexemes segment.text.toList)
    if parts.isEmpty then .ok [segment] else parts.mapM (checkFit segment)

/-- The tokens of a text in the named file. -/
def lex (lexer : Lexer) (text : List Char) (file : String) : Except Fault (List Token) := do
  let split := segments text
  match split.fault? file 0 with
  | some fault => throw fault
  | none =>
    let refined ← (place lexer.spacing file 0 split.pieces).mapM lexer.refine
    return refined.flatten.map (Token.classified lexer.catalogue)

/-- The tokens of a text. -/
def tokenize (lexer : Lexer) (source : String) (file? : Option String) :
    Except Fault (List Token) :=
  lexer.lex source.toList (file?.getD defaultFile)

/-- The tokens of all that a byte source holds. The first scan is made while the source is read. -/
def tokenizeSource {σ : Type} [ByteSource σ] (lexer : Lexer) (source : σ) (file? : Option String) :
    Except Fault (List Token) := do
  let scanner := Scanner.start .first source lexer.spacing (file?.getD defaultFile) 0
  let segments ← scanner.tokens.1
  let refined ← segments.mapM lexer.refine
  return refined.flatten.map (Token.classified lexer.catalogue)

/-- The words of a line that nothing could classify; none if the line is faulty. -/
def unresolvedInLine (lexer : Lexer) (file : String) (line : List Char) : List String :=
  match lexer.lex line file with
  | .ok tokens => Token.unresolvedTexts tokens
  | .error _ => []

/-- The words of a text that nothing could classify. -/
def unresolvedSymbols (lexer : Lexer) (text : String) (file? : Option String) : NameSet :=
  NameSet.ofList
    ((Text.sourceLines text.toList).flatMap (lexer.unresolvedInLine (file?.getD defaultFile)))

end Lexer

end LayoutLex
