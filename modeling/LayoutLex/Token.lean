import LayoutLex.Literal
import LayoutLex.Operator
import LayoutLex.Position

/-!
# Tokens

A token is a piece of a source with its kind, its text and its place. Every kind but `unresolved`
is final.

* `precedences` looks up how tightly an operator binds, for each entry of its name.
* `literal?` is the value of a number or string. A string without characters is null.
-/

namespace LayoutLex

/-- What a token is. -/
inductive TokenKind where
  | spaces | comment | string | number | badNumber
  | operator | monadic | dyadic
  | function | command | both
  | flow | keyword | unresolved
  deriving DecidableEq, Repr, Inhabited

namespace TokenKind

/-- All kinds. -/
def all : List TokenKind :=
  [spaces, comment, string, number, badNumber, operator, monadic, dyadic, function, command, both,
    flow, keyword, unresolved]

theorem mem_all (kind : TokenKind) : kind ∈ all := by
  cases kind <;> decide

/-- The name of the kind. -/
def name : TokenKind → String
  | spaces => "SPACES"
  | comment => "COMMENT"
  | string => "STRING"
  | number => "NUMBER"
  | badNumber => "ERROR_NUMBER"
  | operator => "OPERATOR"
  | monadic => "OPERATOR_MONADIC"
  | dyadic => "OPERATOR_DIADIC"
  | function => "OPERATOR_FUNCTION"
  | command => "OPERATOR_COMMAND"
  | both => "OPERATOR_BOTH"
  | flow => "FLOW"
  | keyword => "KEYWORD"
  | unresolved => "UNRESOLVED"

/-- The kinds of symbols that operate on what stands around them. -/
def isOperator (kind : TokenKind) : Bool :=
  kind == operator || kind == monadic || kind == dyadic

end TokenKind

/-- A piece of a source. -/
structure Token where
  kind : TokenKind
  text : String
  span : Span
  deriving DecidableEq, Repr, Inhabited

namespace Token

/-- The token has its final kind. -/
def isResolved (t : Token) : Bool :=
  t.kind != .unresolved

/-- The token is an operator of the table by its kind. -/
def isOperator (t : Token) : Bool :=
  t.kind.isOperator

/-- How tightly the entries with the token's name bind, if it is an operator. -/
def precedences (t : Token) : List Int :=
  if t.isOperator then Operator.precedences t.text else []

/-- The text between two double quotes. -/
def unquoted? : List Char → Option (List Char)
  | '\x22' :: rest => if rest.getLast? = some '\x22' then some rest.dropLast else none
  | _ => none

/-- The value that a number or string denotes. -/
def literal? (t : Token) : Option Value :=
  match t.kind with
  | .number => Literal.read? t.text.toList
  | .string =>
    (unquoted? t.text.toList).map fun inner =>
      if inner.isEmpty then .null else .ofText inner
  | _ => none

/-- The token as it is shown in a listing. -/
def shown (t : Token) : String :=
  "#<:" ++ t.kind.name ++ " '" ++ t.text ++ "'>"

/-- The texts of the tokens whose kind is not final, in order. -/
def unresolvedTexts (tokens : List Token) : List String :=
  (tokens.filter (!·.isResolved)).map (·.text)

end Token

end LayoutLex
