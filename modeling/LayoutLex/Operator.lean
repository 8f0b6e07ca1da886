import LayoutLex.Fault

/-!
# Operators

The operators of the language: their names, how tightly they bind and what operands they take.
A name may stand for several operators (`-` takes one operand or two), so a look-up by name gives
a list, in the order of the table.

* `arityOf` gives the word for a number of operands; more than two is a fault.
* Some operators are listed for information alone; they have no precedence (`binding?`).

Results:
* `isOperator_iff`: a name is an operator's exactly when it has an entry.
-/

namespace LayoutLex

/-- What an operand must be. -/
inductive OperandKind where
  | list | expr | array | matrix | vector | target
  deriving DecidableEq, Repr

namespace OperandKind

/-- All kinds of operands. -/
def all : List OperandKind :=
  [list, expr, array, matrix, vector, target]

theorem mem_all (kind : OperandKind) : kind ∈ all := by
  cases kind <;> decide

/-- The name of the kind. -/
def name : OperandKind → String
  | list => "List"
  | expr => "Expr"
  | array => "Array"
  | matrix => "Matrix"
  | vector => "Vector"
  | target => "Variable"

end OperandKind

/-- How many operands an operator takes. -/
inductive Arity where
  | niladic | monadic | dyadic
  deriving DecidableEq, Repr

namespace Arity

/-- The word for the arity. -/
def name : Arity → String
  | niladic => "NILADIC"
  | monadic => "MONADIC"
  | dyadic => "DYADIC"

end Arity

/-- The arity of a list of operands. -/
def arityOf (operands : List OperandKind) : Except Fault Arity :=
  match operands.length with
  | 0 => .ok .niladic
  | 1 => .ok .monadic
  | 2 => .ok .dyadic
  | count => .error ⟨.operandCount count, .nowhere⟩

/-- An entry of the table of operators. -/
structure Operator where
  name : String
  precedence : Int
  operands : List OperandKind
  deriving DecidableEq, Repr

namespace Operator

/-- Brackets bind tightest. -/
def bracketPrecedence : Int := 377

/-- Parentheses bind tighter than all but brackets. -/
def parenthesisPrecedence : Int := 376

/-- Assignment binds loosest. -/
def assignmentPrecedence : Int := 0

/-- The mark of an operator listed for information alone. -/
def noPrecedence : Int := -1

/-- How tightly the operator binds, unless it is listed for information alone. -/
def binding? (op : Operator) : Option Int :=
  if op.precedence = noPrecedence then none else some op.precedence

/-- The operators, the tightest first. -/
def table : List Operator :=
  [
    ⟨"[", bracketPrecedence, [.list]⟩, ⟨"]", bracketPrecedence, [.list]⟩,
    ⟨"(", parenthesisPrecedence, [.expr]⟩, ⟨")", parenthesisPrecedence, [.expr]⟩,
    ⟨"+", 20, [.array]⟩, ⟨"-", 20, [.array]⟩, ⟨"*", 20, [.array]⟩, ⟨"%", 20, [.array]⟩,
    ⟨"ABS", 20, [.array]⟩, ⟨"ARCTAN", 20, [.array]⟩, ⟨"TAN", 20, [.array]⟩,
    ⟨"CEILING", 20, [.array]⟩, ⟨"COS", 20, [.array]⟩, ⟨"FLOOR", 20, [.array]⟩,
    ⟨"GRADEDOWN", 20, [.matrix]⟩, ⟨"GRADEUP", 20, [.matrix]⟩, ⟨"GRADEDOWN", 20, [.vector]⟩,
    ⟨"GRADEUP", 20, [.vector]⟩, ⟨"LN", 20, [.array]⟩, ⟨"NOT", 20, [.array]⟩,
    ⟨"LOGBASE", 17, [.array, .array]⟩, ⟨"POWER", 17, [.array, .array]⟩,
    ⟨"*", 16, [.expr, .expr]⟩, ⟨"%", 16, [.expr, .expr]⟩, ⟨"MAX", 16, [.array, .array]⟩,
    ⟨"MIN", 16, [.array, .array]⟩, ⟨"MOD", 16, [.array, .array]⟩, ⟨"+", 15, [.array, .array]⟩,
    ⟨"-", 15, [.array, .array]⟩, ⟨"=", 13, [.array, .array]⟩, ⟨"<", 13, [.array, .array]⟩,
    ⟨">", 13, [.array, .array]⟩, ⟨"<=", 13, [.array, .array]⟩, ⟨">=", 13, [.array, .array]⟩,
    ⟨"<>", 13, [.array, .array]⟩, ⟨"EQ", 13, [.array, .array]⟩, ⟨"GEQ", 13, [.array, .array]⟩,
    ⟨"GT", 13, [.array, .array]⟩, ⟨"IN", 13, [.array, .vector]⟩, ⟨"LEQ", 13, [.array, .array]⟩,
    ⟨"NEQ", 13, [.array, .array]⟩, ⟨"OR", 12, [.array, .array]⟩, ⟨"XOR", 12, [.array, .array]⟩,
    ⟨"NOR", 12, [.array, .array]⟩, ⟨"NAND", 11, [.array, .array]⟩,
    ⟨"AND", 11, [.array, .array]⟩, ⟨"IOTA", 10, [.array]⟩, ⟨"LENGTH", 10, [.list]⟩,
    ⟨"SHAPE", 10, [.array]⟩, ⟨"SIZE", 10, [.array]⟩, ⟨",", 10, [.array]⟩,
    ⟨"RANK", 10, [.array]⟩, ⟨"RESHAPE", 7, [.vector, .array]⟩,
    ⟨"INDEXOF", 7, [.vector, .array]⟩, ⟨",", 6, [.vector, .vector]⟩, ⟨";", 5, [.list, .list]⟩,
    ⟨":=", assignmentPrecedence, [.target, .expr]⟩, ⟨"TYPEOF", noPrecedence, [.array]⟩,
    ⟨"SORT", noPrecedence, [.vector]⟩, ⟨"SORTDOWN", noPrecedence, [.vector]⟩,
    ⟨"SORT", noPrecedence, [.matrix]⟩, ⟨"SORTDOWN", noPrecedence, [.matrix]⟩,
    ⟨"EXP", noPrecedence, [.array]⟩, ⟨"PI", noPrecedence, [.array]⟩,
    ⟨"INDICES_OF", noPrecedence, [.array, .array]⟩, ⟨"MIN_MAX", noPrecedence, [.array]⟩,
    ⟨"BITAND", noPrecedence, [.vector, .vector]⟩, ⟨"BITOR", noPrecedence, [.vector, .vector]⟩,
    ⟨"BITXOR", noPrecedence, [.vector, .vector]⟩
  ]

/-- The entries with the name, in the order of the table. -/
def named (name : String) : List Operator :=
  table.filter (·.name == name)

/-- The name has an entry. -/
def isOperator (name : String) : Bool :=
  table.any (·.name == name)

theorem isOperator_iff {name : String} : isOperator name = true ↔ named name ≠ [] := by
  simp [isOperator, named, List.filter_eq_nil_iff]

/-- The precedences of the entries with the name. -/
def precedences (name : String) : List Int :=
  (named name).map (·.precedence)

/-- The name stands for two operators. -/
def isOverloaded (name : String) : Bool :=
  (named name).length == 2

/-- The names of the table, each once, in the order in which they come first. -/
def names : List String :=
  (table.map (·.name)).eraseDups

/-- The names that stand for two operators. -/
def overloadedNames : List String :=
  names.filter isOverloaded

end Operator

end LayoutLex
