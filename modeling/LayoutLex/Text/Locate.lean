import LayoutLex.Text.Lines
import LayoutLex.Text.Utf8

/-!
# The line that holds an offset

Lines are cut after every single carriage return and every single line feed, so a pair of the two
ends two lines, the second of which is the line feed alone.
-/

namespace LayoutLex.Text

/-- A line of a text with a byte offset in it. -/
structure Located where
  /-- The number of the line, counted from one. -/
  number : Nat
  /-- The line with the line break that ends it. -/
  line : List Char
  /-- The byte offset within the line. -/
  column : Nat
  deriving DecidableEq, Repr

/-- The line among `lines`, the first of which has the given number, that holds the offset. -/
def locateIn (number : Nat) (offset : Nat) : List (List Char) → Option Located
  | [] => none
  | line :: lines =>
    if offset < byteLength line then some ⟨number, line, offset⟩
    else locateIn (number + 1) (offset - byteLength line) lines

/-- The line that holds the byte at `offset`, if there is such a byte. -/
def locate (cs : List Char) (offset : Nat) : Option Located :=
  locateIn 1 offset (terminated isBreak cs)

end LayoutLex.Text
