import LayoutLex.Lexer

/-!
# Listings

How the program prints the tokens of a text: one a line, each with its span.
-/

namespace LayoutLex.Program

/-- A token with its span on a line of its own. -/
def tokenLine (t : Token) : String :=
  "    " ++ t.shown ++ " [" ++ toString t.span.start.offset ++ ".." ++
    toString t.span.stop.offset ++ "]\n"

/-- The tokens, one a line. -/
def listing (tokens : List Token) : String :=
  String.join (tokens.map tokenLine)

end LayoutLex.Program
