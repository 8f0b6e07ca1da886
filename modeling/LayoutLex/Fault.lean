import LayoutLex.Position
import LayoutLex.Text.Quoted

/-!
# Faults

What can be wrong with a source, a value, an operand shape or a catalogue: a `Cause`, and the
position it was found at.

* `Cause.name` is the word for the kind of fault, `Cause.text` says what happened, `Cause.advice?`
  what to do about it.
* `Fault.message` is the text of the cause followed by the position.
-/

namespace LayoutLex

/-- What is wrong. -/
inductive Cause where
  /-- A string or quoted comment is still open at the end; `text` runs from its delimiter. -/
  | unclosed (delimiter : Char) (text : String)
  /-- A token cannot be replaced by the tokens found in it. -/
  | misfit (token : String)
  /-- An operator is given a number of operands that no operator takes. -/
  | operandCount (count : Nat)
  /-- Two elements of one container have different modes, given by their codes. -/
  | mixedModes (expected received : Nat)
  /-- A matrix is given a number of elements that its shape has no room for. -/
  | matrixShape (rows columns elements : Nat)
  /-- A line of a catalogue's manifest names no role and symbol. -/
  | badEntry (line : String)
  deriving DecidableEq, Repr

namespace Cause

/-- The word for the kind of fault. -/
def name : Cause → String
  | unclosed .. => "UnterminatedLiteral"
  | misfit .. => "ConsistencyViolation"
  | operandCount .. => "InvalidArgumentShape"
  | mixedModes .. => "MixedModes"
  | matrixShape .. => "InvalidMatrixShape"
  | badEntry .. => "MalformedCatalogueEntry"

/-- What happened. -/
def text : Cause → String
  | unclosed delimiter text => delimiter.toString ++ " not closed: " ++ Text.quoted text
  | misfit token =>
    "cannot splice token " ++ Text.quoted token ++ " back into the token list"
  | operandCount count =>
    "argument shape must have 0, 1 or 2 entries, received " ++ toString count
  | mixedModes expected received =>
    "mixed modes in a same-mode container: expected " ++ toString expected ++ ", received " ++
      toString received
  | matrixShape rows columns elements =>
    "matrix shape " ++ toString rows ++ "x" ++ toString columns ++ " does not fit " ++
      toString elements ++ " elements"
  | badEntry line => "malformed catalogue entry: " ++ Text.quoted line

/-- What to do about it, if there is anything to say. -/
def advice? : Cause → Option String
  | unclosed delimiter _ => some ("Missing closing `" ++ delimiter.toString ++ "`")
  | misfit _ => none
  | operandCount count =>
    some ("Operators take at most 2 arguments, received " ++ toString count)
  | mixedModes expected received =>
    some ("Expected every element to have mode " ++ toString expected ++ ", found mode " ++
      toString received ++ "; use a list for mixed modes")
  | matrixShape rows columns elements =>
    some ("A " ++ toString rows ++ "x" ++ toString columns ++ " matrix needs " ++
      toString (rows * columns) ++ " elements, received " ++ toString elements)
  | badEntry _ =>
    some "Entries look like `FUNCTION NAME`, `COMMAND NAME` or `BOTH NAME`"

end Cause

/-- A cause and where it was found. -/
structure Fault where
  cause : Cause
  position : Position
  deriving DecidableEq, Repr

namespace Fault

/-- What happened and where. -/
def message (fault : Fault) : String :=
  fault.cause.text ++ " at " ++ fault.position.text

end Fault

end LayoutLex
