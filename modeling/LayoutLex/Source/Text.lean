import LayoutLex.Source

/-!
# A text as a byte source

All bytes are at hand from the start.
-/

namespace LayoutLex

/-- The bytes of a text and a position among them. -/
structure TextSource where
  bytes : Array UInt8
  position : Nat
  deriving Repr

namespace TextSource

/-- The source of a text, at its start. -/
def ofText (text : List Char) : TextSource :=
  ⟨(Text.encode text).toArray, 0⟩

/-- The next byte, if there is one. -/
def next? (s : TextSource) : Option UInt8 × TextSource :=
  match s.bytes[s.position]? with
  | none => (none, s)
  | some b => (some b, { s with position := s.position + 1 })

/-- The text from the present position on, cut inside a character or not. -/
def rest? (s : TextSource) : Option (List Char) × TextSource :=
  if s.position < s.bytes.size then
    (some (Text.decodeLossy (s.bytes.extract s.position).toList),
      { s with position := s.bytes.size })
  else (none, s)

/-- A byte read is one less to come. -/
theorem remaining_lt (s : TextSource) (b : UInt8) (h : s.next?.1 = some b) :
    s.next?.2.bytes.size - s.next?.2.position < s.bytes.size - s.position := by
  unfold next? at h ⊢
  split at h
  · cases h
  · next heq =>
    obtain ⟨hlt, -⟩ := Array.getElem?_eq_some_iff.mp heq
    simp only
    omega

/-- Reading leaves no more bytes than before. -/
theorem remaining_next (s : TextSource) :
    s.next?.2.bytes.size - s.next?.2.position ≤ s.bytes.size - s.position := by
  unfold next?
  split
  · exact Nat.le_refl _
  · simp only
    omega

/-- Giving a byte back undoes reading it. -/
theorem remaining_back (s : TextSource) (b : UInt8) (h : s.next?.1 = some b) :
    s.next?.2.bytes.size - (s.next?.2.position - 1) ≤ s.bytes.size - s.position := by
  unfold next? at h ⊢
  split at h
  · cases h
  · simp

instance : ByteSource TextSource where
  next? := next?
  back s n := { s with position := s.position - n }
  rest? := rest?
  atEnd s := (s.bytes.size ≤ s.position, s)
  rewind s := { s with position := 0 }
  position := position
  all s := Text.decodeLossy s.bytes.toList
  remaining s := s.bytes.size - s.position
  remaining_lt := remaining_lt
  remaining_next := remaining_next
  remaining_atEnd _ := Nat.le_refl _
  remaining_back := remaining_back

end TextSource

end LayoutLex
