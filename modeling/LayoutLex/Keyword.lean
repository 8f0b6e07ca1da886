/-!
# Reserved words

The words of the language that are no names: those of the flow of control, and those that declare
methods, storage and modes. Flow words are told apart from the rest.

Results:
* `isReserved_of_isFlow`: every flow word is reserved.
-/

namespace LayoutLex.Keyword

/-- The words of the flow of control. -/
def flows : List String :=
  ["IF", "THEN", "ELIF", "ELSE", "ENDIF", "GOTO", "DO", "WHILE", "UNTIL", "ENDDO", "SWITCH",
    "ENDSWITCH", "CASE", "OF", "OUT", "ENDSUB"]

/-- The words that say where a variable lives. -/
def storageClasses : List String :=
  ["EXTERNAL", "LOCAL", "GLOBAL"]

/-- The words that begin a method. -/
def methodKinds : List String :=
  ["FUNCTION", "PROCEDURE"]

/-- The words for the number of arguments of a method. -/
def methodArities : List String :=
  ["NILADIC", "MONADIC", "DYADIC"]

/-- The words for modes. -/
def modes : List String :=
  ["LOGICAL", "INTEGER", "INTEGER2", "REAL", "REAL2", "CHAR"]

/-- The word belongs to the flow of control. -/
def isFlow (word : String) : Bool :=
  flows.contains word

/-- The word is reserved. -/
def isReserved (word : String) : Bool :=
  (flows ++ storageClasses ++ methodKinds ++ methodArities ++ modes).contains word

theorem isReserved_of_isFlow {word : String} (h : isFlow word = true) : isReserved word = true := by
  simp only [isFlow, isReserved, List.contains_iff_mem, List.mem_append] at h ⊢
  exact Or.inl (Or.inl (Or.inl (Or.inl h)))

end LayoutLex.Keyword
