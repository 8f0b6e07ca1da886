/-!
# Positions and spans

A position is a byte offset in a named file; a span is what lies between two positions.

An offset has 32 bits to be kept in. Here it is a number without a bound, and so is every sum of
offsets further on: where a scan starts and how far it has come, the lines of a manifest before an
entry. All of them are those of sources that end, wherever they are counted from, below 2^32 bytes;
`tokenize_lossless` says of the tokens of such a source that their offsets fit.
-/

namespace LayoutLex

/-- A byte offset in a named file. -/
structure Position where
  offset : Nat
  file : String
  deriving DecidableEq, Repr, Inhabited

namespace Position

/-- The position of what no source holds. -/
def nowhere : Position := ⟨0, "<null>"⟩

/-- `file:offset`. -/
def text (p : Position) : String :=
  p.file ++ ":" ++ toString p.offset

end Position

/-- The bytes from `start` up to `stop`. -/
structure Span where
  start : Position
  stop : Position
  deriving DecidableEq, Repr, Inhabited

namespace Span

/-- The number of bytes. -/
def length (s : Span) : Nat :=
  s.stop.offset - s.start.offset

/-- No byte lies in the span. -/
def isEmpty (s : Span) : Bool :=
  s.length == 0

/-- Every byte of `inner` lies in `outer`. The file names do not matter. -/
def contains (outer inner : Span) : Bool :=
  outer.start.offset ≤ inner.start.offset && inner.stop.offset ≤ outer.stop.offset

theorem contains_iff {outer inner : Span} :
    outer.contains inner = true ↔
      outer.start.offset ≤ inner.start.offset ∧ inner.stop.offset ≤ outer.stop.offset := by
  simp [contains]

end Span

end LayoutLex
