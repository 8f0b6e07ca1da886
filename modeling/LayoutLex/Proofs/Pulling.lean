import LayoutLex.Proofs.Moves

/-!
# Lines are pulled one at a time

A source of lines pulls a line when something is wanted of it and nothing is at hand, and then one
line only. It keeps what it has pulled. So what is at hand is the lines pulled so far, whatever has
been read, given back or read again, and nothing is left to be had only when every line has been
pulled and read.

* `Operation` is what may be done with such a source: to move along it byte by byte, to take what is
  left at hand, and to look at all that is at hand.
* `Spent` says that nothing is at hand.
* `Keeps` is what holds of a source of some lines at all times.

Results:
* `after_eq`: an operation pulls a line, if it has to, and moves the position.
* `Keeps.after`, `Keeps.afterAll`: what one operation keeps, and any number of them.
* `afterAll_ofLines`: what is at hand at all times, and when a line is pulled for it.
-/

namespace LayoutLex

open Text

namespace LineSource

/-! ## Operations -/

/-- What may be done with a source of lines. -/
inductive Operation where
  /-- Moves along the bytes. -/
  | move (move : Move)
  /-- Takes all that is at hand from the position on. -/
  | rest
  /-- Looks at all that is at hand. -/
  | all
  deriving DecidableEq, Repr

/-- The operation wants something to be at hand. -/
def Operation.wants : Operation → Bool
  | .move .next | .move .atEnd | .rest => true
  | .move (.back _) | .move .rewind | .move .position | .all => false

/-- The source after the operation. -/
def after (s : LineSource) : Operation → LineSource
  | .move move => (move.perform s).2
  | .rest => s.rest?.2
  | .all => s

/-- The source after some operations, one after another. -/
def afterAll (s : LineSource) (operations : List Operation) : LineSource :=
  operations.foldl after s

/-! ## Pulling a line -/

/-- Nothing is at hand. -/
def Spent (s : LineSource) : Prop :=
  s.position = s.buffer.size

variable {s r : LineSource} {lines : List (List Char)}

theorem ready_of_not_spent (hle : s.position ≤ s.buffer.size) (h : ¬ s.Spent) :
    s.ready = (true, s) := by
  have hlt : s.position < s.buffer.size := Nat.lt_of_le_of_ne hle h
  rw [ready, if_pos hlt]

theorem ready_of_spent (h : s.Spent) : s.ready = s.pull := by
  have hge : ¬ s.position < s.buffer.size := by
    rw [Spent] at h
    omega
  rw [ready, if_neg hge]

/-- A source is ready as it is or, with nothing at hand, after a line has been pulled; or it has
been found that none is left. -/
theorem cases_of_ready (hle : s.position ≤ s.buffer.size) {found : Bool}
    (h : s.ready = (found, r)) :
    (¬ s.Spent ∧ found = true ∧ r = s) ∨
      (s.Spent ∧ found = true ∧ ∃ line more, s.waiting = line :: more ∧ r = s.feed line more) ∨
      s.Spent ∧ found = false ∧ ∃ hwaiting : s.waiting = [], r = s.exhaust hwaiting := by
  by_cases hspent : s.Spent
  · rw [ready_of_spent hspent] at h
    by_cases hwaiting : s.waiting = []
    · rw [pull_of_nil hwaiting] at h
      cases h
      exact Or.inr (Or.inr ⟨hspent, rfl, hwaiting, rfl⟩)
    · obtain ⟨line, more, hwaiting⟩ := List.exists_cons_of_ne_nil hwaiting
      rw [pull_of_cons hwaiting] at h
      cases h
      exact Or.inr (Or.inl ⟨hspent, rfl, line, more, hwaiting, rfl⟩)
  · rw [ready_of_not_spent hle hspent] at h
    cases h
    exact Or.inl ⟨hspent, rfl, rfl⟩

/-- Nothing can be had only if nothing is at hand and no line is left. -/
theorem ready_eq_false_iff (hle : s.position ≤ s.buffer.size) :
    s.ready.1 = false ↔ s.Spent ∧ s.waiting = [] := by
  match h : s.ready with
  | (found, r) =>
    obtain ⟨hspent, rfl, -⟩ | ⟨-, rfl, line, more, hwaiting, -⟩ | ⟨hspent, rfl, hwaiting, -⟩ :=
      cases_of_ready hle h
    · simp [hspent]
    · simp [hwaiting]
    · simp [hspent, hwaiting]

/-- What is not ready has nothing at hand and no line left. -/
theorem of_not_ready (hle : s.position ≤ s.buffer.size) (h : s.ready = (false, r)) :
    s.Spent ∧ ∃ hwaiting : s.waiting = [], r = s.exhaust hwaiting := by
  obtain ⟨-, hfound, -⟩ | ⟨-, hfound, -⟩ | ⟨hspent, -, hr⟩ := cases_of_ready hle h
  · cases hfound
  · cases hfound
  · exact ⟨hspent, hr⟩

/-- What is ready has a byte at hand, at the old position. -/
theorem of_ready (hle : s.position ≤ s.buffer.size) (h : s.ready = (true, r)) :
    r.position = s.position ∧ r.position < r.buffer.size := by
  obtain ⟨hspent, -, rfl⟩ | ⟨hspent, -, line, more, -, rfl⟩ | ⟨-, hfound, -⟩ :=
    cases_of_ready hle h
  · exact ⟨rfl, Nat.lt_of_le_of_ne hle hspent⟩
  · refine ⟨rfl, ?_⟩
    have hline : 0 < (lineBytes line).length := by simp [lineBytes]
    rw [Spent] at hspent
    simp only [feed, Array.size_append, List.size_toArray]
    omega
  · cases hfound

/-! ## Reading -/

theorem next?_of_not_ready (h : s.ready = (false, r)) : s.next? = (none, r) := by
  simp only [next?, h]

theorem next?_of_ready (hle : s.position ≤ s.buffer.size) (h : s.ready = (true, r)) :
    s.next? = (r.buffer[r.position]?, { r with position := r.position + 1 }) := by
  obtain ⟨-, hlt⟩ := of_ready hle h
  simp only [next?, h, Array.getElem?_eq_getElem hlt]

theorem rest?_of_not_ready (h : s.ready = (false, r)) : s.rest? = (none, r) := by
  simp only [rest?, h]

theorem rest?_of_ready (h : s.ready = (true, r)) :
    s.rest? = (some (decodeLossy (r.buffer.toList.drop r.position)),
      { r with position := r.buffer.size }) := by
  have htext : (r.buffer.extract r.position).toList = r.buffer.toList.drop r.position := by
    rw [Array.toList_extract, List.extract_eq_take_drop, List.take_of_length_le (by simp)]
  simp only [rest?, h, htext]

/-- No byte is read only if nothing is at hand and no line is left. -/
theorem next?_eq_none_iff (hle : s.position ≤ s.buffer.size) :
    s.next?.1 = none ↔ s.Spent ∧ s.waiting = [] := by
  rw [← ready_eq_false_iff hle]
  match h : s.ready with
  | (false, r) => simp [next?_of_not_ready h]
  | (true, r) =>
    obtain ⟨-, hlt⟩ := of_ready hle h
    rw [next?_of_ready hle h]
    simp [hlt]

/-- No text is taken only if nothing is at hand and no line is left. -/
theorem rest?_eq_none_iff (hle : s.position ≤ s.buffer.size) :
    s.rest?.1 = none ↔ s.Spent ∧ s.waiting = [] := by
  rw [← ready_eq_false_iff hle]
  match h : s.ready with
  | (false, r) => simp [rest?_of_not_ready h]
  | (true, r) => simp [rest?_of_ready h]

/-- The byte that is read is the one at the position, after the line pulled for it. -/
theorem next?_eq_getElem? (hle : s.position ≤ s.buffer.size) :
    s.next?.1 = s.next?.2.buffer[s.position]? := by
  match h : s.ready with
  | (false, r) =>
    obtain ⟨hspent, hwaiting, rfl⟩ := of_not_ready hle h
    have hsize : s.buffer.size ≤ s.position := Nat.le_of_eq hspent.symm
    rw [next?_of_not_ready h]
    exact (Array.getElem?_eq_none hsize).symm
  | (true, r) =>
    obtain ⟨hposition, -⟩ := of_ready hle h
    rw [next?_of_ready hle h, hposition]

/-- The text that is taken is all from the position on, after the line pulled for it. -/
theorem rest?_eq_some_iff (hle : s.position ≤ s.buffer.size) {text : List Char} :
    s.rest?.1 = some text ↔ ¬ (s.Spent ∧ s.waiting = []) ∧
      text = decodeLossy (s.rest?.2.buffer.toList.drop s.position) := by
  rw [← ready_eq_false_iff hle]
  match h : s.ready with
  | (false, r) => simp [rest?_of_not_ready h]
  | (true, r) =>
    obtain ⟨hposition, -⟩ := of_ready hle h
    rw [rest?_of_ready h, hposition]
    simp [eq_comm]

/-- Once a text has been asked for nothing is at hand. -/
theorem spent_rest? (hle : s.position ≤ s.buffer.size) : s.rest?.2.Spent := by
  match h : s.ready with
  | (false, r) =>
    obtain ⟨hspent, hwaiting, rfl⟩ := of_not_ready hle h
    rw [rest?_of_not_ready h]
    exact hspent
  | (true, r) =>
    rw [rest?_of_ready h]
    rfl

/-! ## What an operation does -/

variable {operation : Operation}

theorem after_of_not_wants (hle : s.position ≤ s.buffer.size) (h : operation.wants = false) :
    ∃ position ≤ s.buffer.size, s.after operation = { s with position := position } := by
  match operation, h with
  | .move (.back n), _ => exact ⟨s.position - n, by omega, rfl⟩
  | .move .rewind, _ => exact ⟨0, Nat.zero_le _, rfl⟩
  | .move .position, _ => exact ⟨s.position, hle, rfl⟩
  | .all, _ => exact ⟨s.position, hle, rfl⟩

theorem after_of_not_ready (hwants : operation.wants = true) (h : s.ready = (false, r)) :
    s.after operation = r := by
  match operation, hwants with
  | .move .next, _ =>
    have hnext : s.after (.move .next) = s.next?.2 := rfl
    rw [hnext, next?_of_not_ready h]
  | .move .atEnd, _ =>
    have hend : s.after (.move .atEnd) = s.ready.2 := rfl
    rw [hend, h]
  | .rest, _ => rw [after, rest?_of_not_ready h]

theorem after_of_ready (hle : s.position ≤ s.buffer.size) (hwants : operation.wants = true)
    (h : s.ready = (true, r)) :
    ∃ position ≤ r.buffer.size, s.after operation = { r with position := position } := by
  obtain ⟨-, hlt⟩ := of_ready hle h
  match operation, hwants with
  | .move .next, _ =>
    have hnext : s.after (.move .next) = s.next?.2 := rfl
    exact ⟨r.position + 1, hlt, by rw [hnext, next?_of_ready hle h]⟩
  | .move .atEnd, _ =>
    have hend : s.after (.move .atEnd) = s.ready.2 := rfl
    exact ⟨r.position, Nat.le_of_lt hlt, by rw [hend, h]⟩
  | .rest, _ => exact ⟨r.buffer.size, Nat.le_refl _, by rw [after, rest?_of_ready h]⟩

/-- The operation makes a line be pulled: it wants something, nothing is at hand and a line is
left. -/
def Pulls (s : LineSource) (operation : Operation) : Prop :=
  operation.wants = true ∧ s.Spent ∧ s.waiting ≠ []

/-- **An operation pulls a line, if it has to, and moves the position** among what is at hand. It
may also find that no line is left. -/
theorem after_eq (hle : s.position ≤ s.buffer.size) (operation : Operation) :
    ∃ r, ((s.Pulls operation ∧ ∃ line more, s.waiting = line :: more ∧ r = s.feed line more) ∨
        (¬ s.Pulls operation ∧ (r = s ∨ ∃ hwaiting : s.waiting = [], r = s.exhaust hwaiting))) ∧
      ∃ position ≤ r.buffer.size, s.after operation = { r with position := position } := by
  cases hwants : operation.wants with
  | false =>
    have hnot : ¬ s.Pulls operation := by simp [Pulls, hwants]
    exact ⟨s, Or.inr ⟨hnot, Or.inl rfl⟩, after_of_not_wants hle hwants⟩
  | true =>
    match hready : s.ready with
    | (found, r) =>
      obtain ⟨hspent, rfl, rfl⟩ | ⟨hspent, rfl, line, more, hwaiting, rfl⟩ |
        ⟨hspent, rfl, hwaiting, rfl⟩ := cases_of_ready hle hready
      · have hnot : ¬ r.Pulls operation := fun h => hspent h.2.1
        exact ⟨r, Or.inr ⟨hnot, Or.inl rfl⟩, after_of_ready hle hwants hready⟩
      · have hpulls : s.Pulls operation := ⟨hwants, hspent, by simp [hwaiting]⟩
        exact ⟨_, Or.inl ⟨hpulls, line, more, hwaiting, rfl⟩, after_of_ready hle hwants hready⟩
      · have hnot : ¬ s.Pulls operation := fun h => h.2.2 hwaiting
        refine ⟨_, Or.inr ⟨hnot, Or.inr ⟨hwaiting, rfl⟩⟩, s.position, hle, ?_⟩
        rw [after_of_not_ready hwants hready]
        rfl

theorem pulled_after (hle : s.position ≤ s.buffer.size) (operation : Operation) :
    (s.Pulls operation ∧ (s.after operation).pulled = s.pulled + 1) ∨
      (¬ s.Pulls operation ∧ (s.after operation).pulled = s.pulled) := by
  obtain ⟨r, ⟨hpulls, line, more, -, rfl⟩ | ⟨hnot, hr⟩, position, -, heq⟩ := after_eq hle operation
  · exact Or.inl ⟨hpulls, by rw [heq]; rfl⟩
  · refine Or.inr ⟨hnot, ?_⟩
    rw [heq]
    obtain rfl | ⟨hwaiting, rfl⟩ := hr
    · rfl
    · rfl

/-! ## What is kept -/

/-- The first `pulled` of the lines are at hand, the others are left, and the position is among what
is at hand. -/
structure Keeps (lines : List (List Char)) (s : LineSource) : Prop where
  buffer_eq : s.buffer.toList = (lines.take s.pulled).flatMap lineBytes
  waiting_eq : s.waiting = lines.drop s.pulled
  pulled_le : s.pulled ≤ lines.length
  position_le : s.position ≤ s.buffer.size

theorem keeps_ofLines (lines : List (List Char)) : Keeps lines (ofLines lines) where
  buffer_eq := rfl
  waiting_eq := rfl
  pulled_le := Nat.zero_le _
  position_le := Nat.le_refl _

/-- A line that is pulled is the next of the lines. -/
theorem Keeps.feed (h : Keeps lines s) {line : List Char} {more : List (List Char)}
    (hwaiting : s.waiting = line :: more) : Keeps lines (s.feed line more) := by
  have hdrop : lines.drop s.pulled = line :: more := h.waiting_eq.symm.trans hwaiting
  have hline : lines[s.pulled]? = some line := by
    rw [← List.head?_drop, hdrop, List.head?_cons]
  unfold LineSource.feed
  refine ⟨?_, ?_, ?_, ?_⟩
  · rw [List.take_add_one, hline, Option.toList_some, List.flatMap_append, ← h.buffer_eq]
    simp
  · rw [← List.drop_drop, hdrop]
    rfl
  · exact (List.getElem?_eq_some_iff.mp hline).1
  · have hle := h.position_le
    simp only [Array.size_append]
    omega

theorem Keeps.exhaust (h : Keeps lines s) (hwaiting : s.waiting = []) :
    Keeps lines (s.exhaust hwaiting) :=
  ⟨h.buffer_eq, h.waiting_eq, h.pulled_le, h.position_le⟩

theorem Keeps.moved (h : Keeps lines s) {position : Nat} (hle : position ≤ s.buffer.size) :
    Keeps lines { s with position := position } :=
  ⟨h.buffer_eq, h.waiting_eq, h.pulled_le, hle⟩

/-- What is kept is kept by every operation. -/
theorem Keeps.after (h : Keeps lines s) (operation : Operation) :
    Keeps lines (s.after operation) := by
  obtain ⟨r, hr, position, hposition, heq⟩ := after_eq h.position_le operation
  rw [heq]
  obtain ⟨-, line, more, hwaiting, rfl⟩ | ⟨-, rfl | ⟨hwaiting, rfl⟩⟩ := hr
  · exact (h.feed hwaiting).moved hposition
  · exact h.moved hposition
  · exact (h.exhaust hwaiting).moved hposition

/-- **It is kept by any operations**, one after another. -/
theorem Keeps.afterAll (h : Keeps lines s) (operations : List Operation) :
    Keeps lines (s.afterAll operations) := by
  induction operations generalizing s with
  | nil => exact h
  | cons operation operations ih => exact ih (h.after operation)

/-- No line is left exactly if all have been pulled. -/
theorem Keeps.waiting_eq_nil_iff (h : Keeps lines s) :
    s.waiting = [] ↔ s.pulled = lines.length := by
  rw [h.waiting_eq, List.drop_eq_nil_iff]
  exact ⟨Nat.le_antisymm h.pulled_le, fun heq => heq ▸ Nat.le_refl _⟩

/-- **Lines are pulled one at a time, and none is lost.** Whatever has been done with a source of
lines, what is at hand is the lines pulled so far, each with a line feed after it, and the position
is among it. An operation makes one more line be pulled if it reads a byte, takes what is at hand or
looks for the end while nothing is at hand and a line is left; otherwise it makes none be pulled. A
byte that is read is the one at the position, a text that is taken is all that is at hand from the
position on, after the line pulled for it, and leaves nothing at hand. There is no byte and no text
exactly if nothing is at hand and every line has been pulled. -/
theorem afterAll_ofLines (lines : List (List Char)) (operations : List Operation) :
    let s := (ofLines lines).afterAll operations
    let drained := s.Spent ∧ s.pulled = lines.length
    s.buffer.toList = (lines.take s.pulled).flatMap lineBytes ∧
      s.pulled ≤ lines.length ∧ s.position ≤ s.buffer.size ∧
      (∀ operation,
        let pulls := operation.wants = true ∧ s.Spent ∧ s.pulled < lines.length
        (pulls ∧ (s.after operation).pulled = s.pulled + 1) ∨
          (¬ pulls ∧ (s.after operation).pulled = s.pulled)) ∧
      (s.next?.1 = none ↔ drained) ∧ (s.rest?.1 = none ↔ drained) ∧
      s.next?.1 = s.next?.2.buffer[s.position]? ∧
      (∀ text, s.rest?.1 = some text ↔
        ¬ drained ∧ text = decodeLossy (s.rest?.2.buffer.toList.drop s.position)) ∧
      s.rest?.2.Spent := by
  intro s drained
  have hkeeps : Keeps lines s := (keeps_ofLines lines).afterAll operations
  have hle := hkeeps.position_le
  have hdrained : s.Spent ∧ s.waiting = [] ↔ drained := and_congr_right fun _ =>
    hkeeps.waiting_eq_nil_iff
  have hleft : s.waiting ≠ [] ↔ s.pulled < lines.length := by
    rw [Ne, hkeeps.waiting_eq_nil_iff]
    exact ⟨Nat.lt_of_le_of_ne hkeeps.pulled_le, Nat.ne_of_lt⟩
  refine ⟨hkeeps.buffer_eq, hkeeps.pulled_le, hle, fun operation => ?_, ?_, ?_,
    next?_eq_getElem? hle, fun text => ?_, spent_rest? hle⟩
  · rw [← hleft]
    exact pulled_after hle operation
  · rw [next?_eq_none_iff hle, hdrained]
  · rw [rest?_eq_none_iff hle, hdrained]
  · rw [rest?_eq_some_iff hle, hdrained]

-- A line feed that is given back is read again before the second line is pulled.
example :
    let s := (ofLines ["A".toList, "B".toList]).afterAll [.rest, .move (.back 1), .move .next]
    s.pulled = 1 ∧ (s.after (.move .atEnd)).pulled = 2 := by
  decide

end LineSource

end LayoutLex
