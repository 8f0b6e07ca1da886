import LayoutLex.Text.Utf8

/-!
# Byte sources

Where the bytes of a program come from. A source is read forward byte by byte or up to its end,
and can be set back; what has been read once is kept, so reading it again gives the same bytes.

* Looking for the end may have to fetch input, so it gives a new source too.
* `remaining` bounds the number of bytes still to come. Every byte read makes it smaller; looking
  for the next byte or the end does not make it larger, nor does going back to before the byte read
  last. That is what makes reading to the end finite.
-/

namespace LayoutLex

/-- A type of sources of bytes. -/
class ByteSource (σ : Type) where
  /-- The next byte, if there is one. -/
  next? : σ → Option UInt8 × σ
  /-- Goes back by some bytes, at most to the start. -/
  back : σ → Nat → σ
  /-- All that is at hand from the present position on, if there is anything. -/
  rest? : σ → Option (List Char) × σ
  /-- There is no next byte. -/
  atEnd : σ → Bool × σ
  /-- Goes back to the start. -/
  rewind : σ → σ
  /-- The number of bytes before the present position. -/
  position : σ → Nat
  /-- All text at hand. -/
  all : σ → List Char
  /-- A bound on the number of bytes to come. -/
  remaining : σ → Nat
  remaining_lt : ∀ (s : σ) (b : UInt8), (next? s).1 = some b → remaining (next? s).2 < remaining s
  remaining_next : ∀ s : σ, remaining (next? s).2 ≤ remaining s
  remaining_atEnd : ∀ s : σ, remaining (atEnd s).2 ≤ remaining s
  remaining_back : ∀ (s : σ) (b : UInt8), (next? s).1 = some b →
    remaining (back (next? s).2 1) ≤ remaining s

end LayoutLex
