import LayoutLex.Source

/-!
# Lines as a byte source

A source that is fed line by line, as from a prompt. A line is pulled only when a byte is wanted
and none is at hand; it is kept, with a line feed after it, so that going back finds it again. Once
a line was wanted and there was none, no line is asked for any more.

Results:
* `pull_of_nil`, `pull_of_cons`: a line is pulled exactly if one waits. That none is asked for any
  more makes no difference, since none waits then.
* `remaining_pull`: pulling a line adds no byte to those to come.
-/

namespace LayoutLex

/-- Lines that have been pulled, as bytes, a position among them, and the lines still to come. -/
structure LineSource where
  waiting : List (List Char)
  buffer : Array UInt8
  pulled : Nat
  position : Nat
  /-- A line was wanted and there was none. -/
  exhausted : Bool
  waiting_of_exhausted : exhausted = true → waiting = []
  deriving Repr

namespace LineSource

/-- The source of the lines, none of which is pulled yet. -/
def ofLines (lines : List (List Char)) : LineSource :=
  ⟨lines, #[], 0, 0, false, nofun⟩

/-- The bytes that a line adds. -/
def lineBytes (line : List Char) : List UInt8 :=
  Text.encode line ++ [0x0A]

/-- The source with the line at hand, and these lines to come. -/
def feed (s : LineSource) (line : List Char) (lines : List (List Char)) : LineSource :=
  ⟨lines, s.buffer ++ (lineBytes line).toArray, s.pulled + 1, s.position, false, nofun⟩

/-- The source when it has been found that no line waits. -/
def exhaust (s : LineSource) (h : s.waiting = []) : LineSource :=
  { s with exhausted := true, waiting_of_exhausted := fun _ => h }

/-- The source with one more line at hand, if there is one, and whether there is. -/
def pull (s : LineSource) : Bool × LineSource :=
  if s.exhausted then (false, s)
  else
    match h : s.waiting with
    | [] => (false, s.exhaust h)
    | line :: lines => (true, s.feed line lines)

/-- The source with a byte at hand, if there is one to be had, and whether there is. -/
def ready (s : LineSource) : Bool × LineSource :=
  if s.position < s.buffer.size then (true, s) else s.pull

/-- The number of bytes to come. -/
def remaining (s : LineSource) : Nat :=
  (s.buffer.size - s.position) + (s.waiting.flatMap lineBytes).length

/-- The next byte, if there is one. -/
def next? (s : LineSource) : Option UInt8 × LineSource :=
  match s.ready with
  | (false, r) => (none, r)
  | (true, r) =>
    match r.buffer[r.position]? with
    | none => (none, r)
    | some b => (some b, { r with position := r.position + 1 })

/-- The text at hand from the present position on, or the next line if there is none at hand. -/
def rest? (s : LineSource) : Option (List Char) × LineSource :=
  match s.ready with
  | (false, r) => (none, r)
  | (true, r) =>
    (some (Text.decodeLossy (r.buffer.extract r.position).toList),
      { r with position := r.buffer.size })

/-- There is no byte at hand and none to be had. -/
def atEnd (s : LineSource) : Bool × LineSource :=
  match s.ready with
  | (found, r) => (!found, r)

/-! ## Pulling a line -/

/-- Finding it again changes nothing. -/
theorem exhaust_of_exhausted {s : LineSource} (h : s.waiting = [])
    (hexhausted : s.exhausted = true) : s.exhaust h = s := by
  cases s
  cases hexhausted
  rfl

theorem pull_of_nil {s : LineSource} (h : s.waiting = []) : s.pull = (false, s.exhaust h) := by
  unfold pull
  by_cases hexhausted : s.exhausted = true
  · rw [if_pos hexhausted, exhaust_of_exhausted h hexhausted]
  · rw [if_neg hexhausted]
    split
    · rfl
    · next hcons =>
      rw [h] at hcons
      cases hcons

theorem pull_of_cons {s : LineSource} {line : List Char} {lines : List (List Char)}
    (h : s.waiting = line :: lines) : s.pull = (true, s.feed line lines) := by
  have hexhausted : ¬ s.exhausted = true := by
    intro hexhausted
    rw [s.waiting_of_exhausted hexhausted] at h
    cases h
  unfold pull
  rw [if_neg hexhausted]
  split
  · next hnil =>
    rw [h] at hnil
    cases hnil
  · next hcons =>
    rw [h] at hcons
    cases hcons
    rfl

/-- Pulling a line adds no byte to those to come. -/
theorem remaining_pull (s : LineSource) : s.pull.2.remaining ≤ s.remaining := by
  cases hwaiting : s.waiting with
  | nil =>
    rw [pull_of_nil hwaiting]
    exact Nat.le_refl _
  | cons line lines =>
    rw [pull_of_cons hwaiting]
    simp only [remaining, feed, hwaiting, List.flatMap_cons, List.length_append, Array.size_append,
      List.size_toArray]
    omega

theorem remaining_ready (s : LineSource) : s.ready.2.remaining ≤ s.remaining := by
  unfold ready
  split
  · exact Nat.le_refl _
  · exact remaining_pull s

/-! ## Reading -/

/-- A byte read is one less to come. -/
theorem remaining_lt (s : LineSource) (b : UInt8) (h : s.next?.1 = some b) :
    s.next?.2.remaining < s.remaining := by
  have hle := remaining_ready s
  unfold next? at h ⊢
  split at h
  · cases h
  · next r hr =>
    rw [hr] at hle
    split at h
    · cases h
    · next heq =>
      obtain ⟨hlt, -⟩ := Array.getElem?_eq_some_iff.mp heq
      simp only [remaining] at hle ⊢
      omega

/-- Reading leaves no more bytes than before, those of a line pulled for it included. -/
theorem remaining_next (s : LineSource) : s.next?.2.remaining ≤ s.remaining := by
  have hle := remaining_ready s
  unfold next?
  split
  · next r hr =>
    rw [hr] at hle
    exact hle
  · next r hr =>
    rw [hr] at hle
    split
    · exact hle
    · refine Nat.le_trans ?_ hle
      simp only [remaining]
      omega

theorem remaining_atEnd (s : LineSource) : s.atEnd.2.remaining ≤ s.remaining :=
  remaining_ready s

/-- Giving a byte back undoes reading it. -/
theorem remaining_back (s : LineSource) (b : UInt8) (h : s.next?.1 = some b) :
    remaining { s.next?.2 with position := s.next?.2.position - 1 } ≤ s.remaining := by
  have hle := remaining_ready s
  unfold next? at h ⊢
  split at h
  · cases h
  · next r hr =>
    rw [hr] at hle
    split at h
    · cases h
    · simpa using hle

instance : ByteSource LineSource where
  next? := next?
  back s n := { s with position := s.position - n }
  rest? := rest?
  atEnd := atEnd
  rewind s := { s with position := 0 }
  position := position
  all s := Text.decodeLossy s.buffer.toList
  remaining := remaining
  remaining_lt := remaining_lt
  remaining_next := remaining_next
  remaining_atEnd := remaining_atEnd
  remaining_back := remaining_back

end LineSource

end LayoutLex
