import LayoutLex.NameSet

/-!
# Catalogues

A catalogue says which names are functions, commands or both. It is two sets of names; a name that
is in neither is no symbol of the catalogue.
-/

namespace LayoutLex

/-- The functions and commands that a program may name. -/
structure Catalogue where
  functions : NameSet
  commands : NameSet
  deriving DecidableEq

namespace Catalogue

/-- The catalogue without symbols. -/
def empty : Catalogue := ⟨.empty, .empty⟩

instance : Inhabited Catalogue := ⟨empty⟩

/-- The catalogue in which the name is a function, whatever it was before. -/
def addFunction (c : Catalogue) (name : String) : Catalogue :=
  { c with functions := c.functions.insert name }

/-- The catalogue in which the name is a command, whatever it was before. -/
def addCommand (c : Catalogue) (name : String) : Catalogue :=
  { c with commands := c.commands.insert name }

/-- All names of the catalogue. -/
def symbols (c : Catalogue) : NameSet :=
  c.functions.union c.commands

/-- The number of names. -/
def size (c : Catalogue) : Nat :=
  c.symbols.size

/-- The name is a function. -/
def isFunction (c : Catalogue) (name : String) : Bool :=
  decide (name ∈ c.functions)

/-- The name is a command. -/
def isCommand (c : Catalogue) (name : String) : Bool :=
  decide (name ∈ c.commands)

/-- The name is a function and no command. -/
def isFunctionOnly (c : Catalogue) (name : String) : Bool :=
  c.isFunction name && !c.isCommand name

/-- The name is a command and no function. -/
def isCommandOnly (c : Catalogue) (name : String) : Bool :=
  c.isCommand name && !c.isFunction name

/-- The name is a function and a command. -/
def isBoth (c : Catalogue) (name : String) : Bool :=
  c.isFunction name && c.isCommand name

end Catalogue

end LayoutLex
