import LayoutLex.Fault
import LayoutLex.Number.Binary64
import LayoutLex.Text.Utf8
import LayoutLex.Value.Mode

/-!
# Values

The values that literals denote and containers hold.

* Scalars are logical, integer (64 bits), real (binary64) and character (one byte).
* A vector or matrix holds elements of one mode, a list holds any. Elements may be containers
  themselves; those without a mode (empty vectors and matrices, however deep) go with every mode.
* The mode of a vector or matrix is found once, when it is built (`sharedMode`), and kept with the
  elements (`Contents`). Nothing in the type says that the mode kept is that of the elements.
* `vectorOf` and `matrixOf` build containers and refuse elements of two modes. A text is the
  vector of its bytes (`ofText`), which is given its mode without a look at them.
* `equal` is equality as programs see it, with reals compared as numbers.
-/

namespace LayoutLex

mutual

/-- A value. The elements of a matrix stand row after row. -/
inductive Value where
  | logical (truth : Bool)
  | integer (number : Int64)
  | real (number : Binary64)
  | character (code : UInt8)
  | vector (contents : Contents)
  | matrix (rows columns : Nat) (contents : Contents)
  | list (elements : List Value)
  | null

/-- The elements of a vector or matrix, and the mode that was found for them. -/
structure Contents where
  elements : List Value
  mode? : Option Mode

end

namespace Value

instance : Inhabited Value := ⟨null⟩

/-- The smallest integer of kind `INTEGER`. -/
def leastShort : Int := -32768

/-- The greatest integer of kind `INTEGER`. -/
def greatestShort : Int := 32767

/-- How the value is built. -/
def kind : Value → Kind
  | logical _ => .logical
  | integer n => if leastShort ≤ n.toInt ∧ n.toInt ≤ greatestShort then .integer else .integer2
  | real _ => .real
  | character _ => .char
  | vector _ => .vector
  | matrix .. => .matrix
  | list _ => .list
  | null => .null

/-! ## Modes -/

/-- What the value is made of, if anything. Vectors and matrices have it at hand. -/
def mode? : Value → Option Mode
  | vector contents | matrix _ _ contents => contents.mode?
  | v => v.kind.mode?

/-- The mode that elements share, none if none of them has a mode, once an element has joined those
that share the given one. An element without a mode goes with every mode. -/
def joinMode (shared? : Option Mode) (element : Value) : Except Fault (Option Mode) :=
  match element.mode?, shared? with
  | none, _ => .ok shared?
  | some mode, none => .ok (some mode)
  | some mode, some expected =>
    if mode = expected then .ok (some expected)
    else .error ⟨.mixedModes expected.code mode.code, .nowhere⟩

/-- The mode that the elements share. -/
def sharedMode (elements : List Value) : Except Fault (Option Mode) :=
  elements.foldlM joinMode none

/-! ## Building containers -/

/-- The elements with their mode, which they must share. -/
def contentsOf (elements : List Value) : Except Fault Contents := do
  let mode? ← sharedMode elements
  return ⟨elements, mode?⟩

/-- The vector of the elements, which must share a mode. -/
def vectorOf (elements : List Value) : Except Fault Value := do
  let contents ← contentsOf elements
  return vector contents

/-- The matrix of the elements, which must fill its shape and share a mode. -/
def matrixOf (rows columns : Nat) (elements : List Value) : Except Fault Value := do
  if rows * columns ≠ elements.length then
    throw ⟨.matrixShape rows columns elements.length, .nowhere⟩
  let contents ← contentsOf elements
  return matrix rows columns contents

/-- The vector of the bytes of a text. Its mode is not looked up. -/
def ofText (text : List Char) : Value :=
  vector ⟨(Text.encode text).map character, if text.isEmpty then none else some .char⟩

/-! ## Parts and sizes -/

/-- The elements of a container, none for any other value. -/
def elements : Value → List Value
  | vector contents | matrix _ _ contents => contents.elements
  | list vs => vs
  | _ => []

/-- The element of a matrix in the given row and column, both counted from zero. -/
def cell? : Value → Nat → Nat → Option Value
  | matrix rows columns contents, row, column =>
    if row < rows ∧ column < columns then contents.elements[row * columns + column]? else none
  | _, _, _ => none

/-- The number of dimensions. -/
def rank : Value → Nat
  | null | list _ => 0
  | matrix .. => 2
  | _ => 1

/-- The value is no container and not null. -/
def isScalar : Value → Bool
  | logical _ | integer _ | real _ | character _ => true
  | _ => false

/-- All elements of such a value have one mode. -/
def sameModeOnly : Value → Bool
  | list _ => false
  | _ => true

/-- The number of elements; a scalar has one, null none. -/
def size : Value → Nat
  | null => 0
  | vector contents | matrix _ _ contents => contents.elements.length
  | list vs => vs.length
  | _ => 1

/-- The number of elements, where null counts as one. -/
def length : Value → Nat
  | null => 1
  | v => v.size

/-- The codes of elements that are all characters. -/
def codes? (elements : List Value) : Option (List UInt8) :=
  elements.mapM fun
    | character code => some code
    | _ => none

/-- The value is a vector of characters, at least one. -/
def isString : Value → Bool
  | vector contents => !contents.elements.isEmpty && (codes? contents.elements).isSome
  | _ => false

/-! ## Equality -/

mutual

/-- The values are of one form and equal part by part. -/
def equal : Value → Value → Bool
  | logical a, logical b => a == b
  | integer a, integer b => a == b
  | real a, real b => a.same b
  | character a, character b => a == b
  | vector ⟨a, mode⟩, vector ⟨b, mode'⟩ => equalAll a b && mode == mode'
  | matrix rows columns ⟨a, mode⟩, matrix rows' columns' ⟨b, mode'⟩ =>
    rows == rows' && columns == columns' && equalAll a b && mode == mode'
  | list a, list b => equalAll a b
  | null, null => true
  | _, _ => false

/-- The elements are equal in order. -/
def equalAll : List Value → List Value → Bool
  | [], [] => true
  | a :: as, b :: bs => equal a b && equalAll as bs
  | _, _ => false

end

end Value

end LayoutLex
