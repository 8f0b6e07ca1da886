/-!
# Kinds and modes

The kind of a value says how it is built; its mode says what its elements are, as a numeric code
that programs of the language can see. Vectors and matrices have no mode of their own: they take
the mode their elements share.
-/

namespace LayoutLex

/-- How a value is built. -/
inductive Kind where
  | logical | integer | integer2 | real | char | null | vector | matrix | list
  deriving DecidableEq, Repr

/-- What a value is made of. -/
inductive Mode where
  | logical | integer | real | char | null | list | integer2 | real2
  deriving DecidableEq, Repr

namespace Mode

/-- The number of the mode, as programs see it. -/
def code : Mode → Nat
  | logical => 1
  | integer => 2
  | real => 3
  | char => 4
  | null => 5
  | list => 6
  | integer2 => 7
  | real2 => 8

theorem code_injective {a b : Mode} (h : a.code = b.code) : a = b := by
  cases a <;> cases b <;> first | rfl | cases h

end Mode

namespace Kind

/-- All kinds, scalars first. -/
def all : List Kind :=
  [logical, integer, integer2, real, char, null, vector, matrix, list]

theorem mem_all (kind : Kind) : kind ∈ all := by
  cases kind <;> decide

/-- The name of the kind. -/
def name : Kind → String
  | logical => "LOGICAL"
  | integer => "INTEGER"
  | integer2 => "INTEGER2"
  | real => "REAL"
  | char => "CHAR"
  | null => "NULL"
  | vector => "VECTOR"
  | matrix => "MATRIX"
  | list => "LIST"

/-- The mode of every value of the kind, for kinds that have one. -/
def mode? : Kind → Option Mode
  | logical => some .logical
  | integer => some .integer
  | integer2 => some .integer2
  | real => some .real
  | char => some .char
  | null => some .null
  | list => some .list
  | vector | matrix => none

end Kind

end LayoutLex
