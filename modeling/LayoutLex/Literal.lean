import LayoutLex.Literal.Numeral
import LayoutLex.Value

/-!
# Literals

The four forms in which a value can be written as one word: floats (with an exponent), reals (with
a point), integers and logical constants.

`Literal.read?` gives the value of a word: the first form that accepts the word decides, so `1` and
`0` are integers and only `TRUE` and `FALSE` are logical. An accepted word whose number does not fit
its type has no value.
-/

namespace LayoutLex.Literal

/-- A form of literal. -/
inductive Form where
  | float | real | integer | logical
  deriving DecidableEq, Repr

namespace Form

/-- The forms in the order in which they are tried. -/
def all : List Form :=
  [float, real, integer, logical]

theorem mem_all (form : Form) : form ∈ all := by
  cases form <;> decide

/-- The name of the form. -/
def name : Form → String
  | float => "Float"
  | real => "Real"
  | integer => "Integer"
  | logical => "Logical"

/-- Integers as a regular expression, where a digit is one of any script. -/
def integerPattern : String := "(-)?\\d+"

/-- Reals without an exponent as a regular expression. -/
def realPattern : String := "(-)?(\\d+)*\\.\\d*"

/-- The form as a regular expression. -/
def pattern : Form → String
  | float => "(" ++ realPattern ++ "|" ++ integerPattern ++ ")(e|E)" ++ integerPattern
  | real => realPattern
  | integer => integerPattern
  | logical => "1|0|TRUE|FALSE"

/-- The form of a numeral. -/
def ofNumeral (n : Numeral) : Form :=
  if n.exponent?.isSome then float else if n.places?.isSome then real else integer

/-- The word has the form. -/
def accepts (form : Form) (word : List Char) : Bool :=
  match form with
  | logical => ["1", "0", "TRUE", "FALSE"].any (·.toList == word)
  | _ => (Numeral.read? word).map ofNumeral == some form

/-- The value of a word that has the form. -/
def value? (form : Form) (word : List Char) : Option Value :=
  match form with
  | float | real => (Numeral.read? word).bind fun n => n.real?.map .real
  | integer => (Numeral.read? word).bind fun n => n.integer?.map .integer
  | logical => some (.logical (word == ['1'] || word == "TRUE".toList))

end Form

/-- The word is a numeral of any form. -/
def isNumber (word : List Char) : Bool :=
  (Numeral.read? word).isSome

/-- The value of a word. -/
def read? (word : List Char) : Option Value :=
  (Form.all.find? (·.accepts word)).bind (·.value? word)

end LayoutLex.Literal
