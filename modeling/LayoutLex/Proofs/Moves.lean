import LayoutLex.Proofs.Streams

/-!
# Moving along a byte source

Whoever reads a byte source byte by byte sees what comes of each move: the byte read, whether the
end is reached, the position. A source that fetches its lines one at a time, when a byte of them or
the end is asked for, shows nothing of that: it gives the same bytes, ends and positions as a source
that has all its text at hand, whatever is read, given back or read again.

* `Move` is what may be done, `Outcome` what comes of it, and `outcomes` are those of some moves.
* `Cursor` is a place in a list of bytes, on which every move is a matter of lists.
* `ClampedByteSource` is a source that goes back no further than to its start.

Results:
* `Move.perform_cursor`: a move on a source is the move on its cursor.
* `outcomes_cursor`: so are any number of moves.
* `outcomes_ofLines`: lines that are pulled one at a time cannot be told from their text.
-/

namespace LayoutLex

open Text LawfulByteSource

/-! ## Moves -/

/-- What may be done with a byte source that is read byte by byte. -/
inductive Move where
  /-- Reads a byte. -/
  | next
  /-- Gives some bytes back. -/
  | back (n : Nat)
  /-- Looks whether there is a byte to come. -/
  | atEnd
  /-- Goes back to the start. -/
  | rewind
  /-- Asks for the number of bytes before. -/
  | position
  deriving DecidableEq, Repr

/-- What comes of a move. -/
inductive Outcome where
  | nothing
  | byte (b? : Option UInt8)
  | ended (atEnd : Bool)
  | offset (n : Nat)
  deriving DecidableEq, Repr

section

variable {σ : Type} [ByteSource σ]

/-- The outcome of a move, and the source after it. -/
def Move.perform (s : σ) : Move → Outcome × σ
  | next => (.byte (ByteSource.next? s).1, (ByteSource.next? s).2)
  | back n => (.nothing, ByteSource.back s n)
  | atEnd => (.ended (ByteSource.atEnd s).1, (ByteSource.atEnd s).2)
  | rewind => (.nothing, ByteSource.rewind s)
  | position => (.offset (ByteSource.position s), s)

/-- The outcomes of some moves, one after another. -/
def outcomes (s : σ) : List Move → List Outcome
  | [] => []
  | move :: moves => (move.perform s).1 :: outcomes (move.perform s).2 moves

end

/-! ## Cursors -/

/-- A place in a list of bytes: those before it and those to come. -/
structure Cursor where
  done : List UInt8
  rest : List UInt8
  deriving DecidableEq, Repr

namespace Cursor

/-- The outcome of a move, and the place after it. -/
def perform (c : Cursor) : Move → Outcome × Cursor
  | .next => (.byte c.rest.head?, ⟨c.done ++ c.rest.take 1, c.rest.drop 1⟩)
  | .back n =>
    (.nothing, ⟨c.done.take (c.done.length - n), c.done.drop (c.done.length - n) ++ c.rest⟩)
  | .atEnd => (.ended c.rest.isEmpty, c)
  | .rewind => (.nothing, ⟨[], c.done ++ c.rest⟩)
  | .position => (.offset c.done.length, c)

/-- The outcomes of some moves, one after another. -/
def outcomes (c : Cursor) : List Move → List Outcome
  | [] => []
  | move :: moves => (c.perform move).1 :: outcomes (c.perform move).2 moves

end Cursor

/-! ## Sources -/

/-- A byte source that goes back no further than to its start. -/
class ClampedByteSource (σ : Type) [ByteSource σ] : Prop where
  back_of_position_le : ∀ {s : σ} {n : Nat}, ByteSource.position s ≤ n →
    ByteSource.back s n = ByteSource.rewind s

instance : ClampedByteSource TextSource where
  back_of_position_le := by
    intro s n h
    have hstart : s.position - n = 0 := Nat.sub_eq_zero_of_le h
    show ({ s with position := s.position - n } : TextSource) = { s with position := 0 }
    rw [hstart]

instance : ClampedByteSource LineSource where
  back_of_position_le := by
    intro s n h
    have hstart : s.position - n = 0 := Nat.sub_eq_zero_of_le h
    show ({ s with position := s.position - n } : LineSource) = { s with position := 0 }
    rw [hstart]

variable {σ : Type} [ByteSource σ] [LawfulByteSource σ] [ClampedByteSource σ] {s : σ}
variable {done rest : List UInt8} {c : Cursor}

/-- Going back by some bytes moves them to those to come, as far as there are any. -/
theorem stands_back (h : Stands s done rest) (n : Nat) :
    Stands (ByteSource.back s n) (done.take (done.length - n))
      (done.drop (done.length - n) ++ rest) := by
  by_cases hn : n ≤ done.length
  · have hlength : (done.drop (done.length - n)).length = n := by
      rw [List.length_drop]
      omega
    rw [← List.take_append_drop (done.length - n) done] at h
    have hback := LawfulByteSource.back h
    rwa [hlength] at hback
  · have hclamp : ByteSource.back s n = ByteSource.rewind s := by
      refine ClampedByteSource.back_of_position_le ?_
      rw [LawfulByteSource.position h]
      omega
    have hzero : done.length - n = 0 := by omega
    rw [hclamp, hzero, List.take_zero, List.drop_zero]
    exact LawfulByteSource.rewind h

/-- **A move on a source is the move on its cursor**: it has the same outcome, and the source stands
at the cursor's new place. -/
theorem Move.perform_cursor (h : Stands s c.done c.rest) (move : Move) :
    (move.perform s).1 = (c.perform move).1 ∧
      Stands (move.perform s).2 (c.perform move).2.done (c.perform move).2.rest := by
  obtain ⟨done, rest⟩ := c
  cases move with
  | next =>
    cases rest with
    | nil =>
      obtain ⟨hbyte, hafter⟩ := next_nil h
      rw [← List.append_nil done] at hafter
      exact ⟨congrArg Outcome.byte hbyte, hafter⟩
    | cons b rest =>
      obtain ⟨hbyte, hafter⟩ := next_cons h
      exact ⟨congrArg Outcome.byte hbyte, hafter⟩
  | back n => exact ⟨rfl, stands_back h n⟩
  | atEnd =>
    obtain ⟨hend, hafter⟩ := LawfulByteSource.atEnd h
    exact ⟨congrArg Outcome.ended hend, hafter⟩
  | rewind => exact ⟨rfl, LawfulByteSource.rewind h⟩
  | position => exact ⟨congrArg Outcome.offset (LawfulByteSource.position h), h⟩

/-- **Moves on a source have the outcomes that they have on its cursor.** -/
theorem outcomes_cursor (h : Stands s c.done c.rest) (moves : List Move) :
    outcomes s moves = c.outcomes moves := by
  induction moves generalizing s c with
  | nil => rfl
  | cons move moves ih =>
    obtain ⟨houtcome, hafter⟩ := Move.perform_cursor h move
    rw [outcomes, Cursor.outcomes, houtcome, ih hafter]

/-- **Lines that are pulled one at a time cannot be told from their text.** Any moves have the same
outcomes, one by one, on a source of lines as on a source of the text in which every line has a line
feed after it, and these are the outcomes on the bytes of that text. -/
theorem outcomes_ofLines (lines : List String) (moves : List Move) :
    let text := (String.join (lines.map (· ++ "\n"))).toList
    outcomes (LineSource.ofLines (lines.map String.toList)) moves =
        outcomes (TextSource.ofText text) moves ∧
      outcomes (TextSource.ofText text) moves = Cursor.outcomes ⟨[], encode text⟩ moves := by
  intro text
  have htext := outcomes_cursor (c := ⟨[], encode text⟩) (TextSource.stands_ofText text) moves
  refine ⟨?_, htext⟩
  rw [htext]
  exact outcomes_cursor (LineSource.stands_ofLines_join lines) moves

end LayoutLex
