import LayoutLex.Text.Utf8

/-!
# The bytes of a text

Offsets count bytes, texts are lists of characters. This module says what a text holds at an
offset.

* `bytesBetween cs start stop` are the bytes from `start` up to `stop`.
* `HoldsAt cs i c` says that the byte at offset `i` is one of those of a character `c`.

Results:
* `bytesBetween_append`: the bytes of the middle one of three parts of a text.
* `byteLength_eq_length_iff`: a text has one byte for each character exactly if it is ASCII.
* `exists_holdsAt`: every byte of a text belongs to one of its characters.
* `holdsAt_append`: which of two texts a byte of both together belongs to.
-/

namespace LayoutLex.Text

/-- The bytes of the text from the offset `start` up to the offset `stop`. -/
def bytesBetween (cs : List Char) (start stop : Nat) : List UInt8 :=
  ((encode cs).drop start).take (stop - start)

/-- The byte at the offset `i` is one of the bytes of a character `c` of the text. -/
def HoldsAt (cs : List Char) (i : Nat) (c : Char) : Prop :=
  ∃ before after, cs = before ++ c :: after ∧
    byteLength before ≤ i ∧ i < byteLength before + c.utf8Size

@[simp] theorem encode_append (a b : List Char) : encode (a ++ b) = encode a ++ encode b := by
  simp [encode]

@[simp] theorem length_encode (cs : List Char) : (encode cs).length = byteLength cs := by
  induction cs with
  | nil => rfl
  | cons c cs ih =>
    rw [byteLength_cons, ← ih]
    simp [encode]

/-! ## Bytes and characters -/

/-- Every character has a byte. -/
theorem length_le_byteLength (cs : List Char) : cs.length ≤ byteLength cs := by
  induction cs with
  | nil => exact Nat.le_refl _
  | cons c cs ih =>
    have hc := c.utf8Size_pos
    rw [List.length_cons, byteLength_cons]
    omega

/-- **A text has as many bytes as characters exactly if all of it is ASCII.** -/
theorem byteLength_eq_length_iff {cs : List Char} :
    byteLength cs = cs.length ↔ ∀ c ∈ cs, c.toNat < 128 := by
  induction cs with
  | nil => simp
  | cons c cs ih =>
    have hc : c.utf8Size = 1 ↔ c.toNat < 128 :=
      Char.utf8Size_eq_one_iff.trans (UInt32.le_iff_toNat_le.trans Nat.lt_succ_iff.symm)
    have hpos := c.utf8Size_pos
    have hle := length_le_byteLength cs
    rw [List.forall_mem_cons, ← ih, ← hc, byteLength_cons, List.length_cons]
    omega

/-! ## Parts of a text -/

theorem bytesBetween_append (before text after : List Char) :
    bytesBetween (before ++ text ++ after) (byteLength before)
      (byteLength before + byteLength text) = encode text := by
  unfold bytesBetween
  rw [encode_append, encode_append, List.append_assoc, ← length_encode before,
    List.drop_left, Nat.add_sub_cancel_left, ← length_encode text, List.take_left]

theorem holdsAt_cons {c d : Char} {cs : List Char} {i : Nat} (h : HoldsAt cs i c) :
    HoldsAt (d :: cs) (d.utf8Size + i) c := by
  obtain ⟨before, after, rfl, hle, hlt⟩ := h
  refine ⟨d :: before, after, rfl, ?_, ?_⟩
  · rw [byteLength_cons]
    omega
  · rw [byteLength_cons]
    omega

theorem lt_of_holdsAt {c : Char} {cs : List Char} {i : Nat} (h : HoldsAt cs i c) :
    i < byteLength cs := by
  obtain ⟨before, after, rfl, -, hlt⟩ := h
  rw [byteLength_append, byteLength_cons]
  omega

theorem eq_of_holdsAt_singleton {c d : Char} {i : Nat} (h : HoldsAt [d] i c) : c = d := by
  obtain ⟨before, after, heq, -, -⟩ := h
  have hmem : c ∈ [d] := heq ▸ List.mem_append_right before List.mem_cons_self
  exact List.mem_singleton.mp hmem

/-- A byte of two texts is one of the first text or one of the second. -/
theorem holdsAt_append {c : Char} {a b : List Char} {i : Nat} (h : HoldsAt (a ++ b) i c) :
    HoldsAt a i c ∨ (byteLength a ≤ i ∧ HoldsAt b (i - byteLength a) c) := by
  obtain ⟨before, after, heq, hle, hlt⟩ := h
  rcases List.append_eq_append_iff.mp heq with ⟨mid, rfl, hb⟩ | ⟨mid, rfl, hb⟩
  · rw [byteLength_append] at hle hlt
    exact Or.inr ⟨by omega, mid, after, hb, by omega, by omega⟩
  · cases mid with
    | nil =>
      rw [List.append_nil]
      exact Or.inr ⟨hle, [], after, hb.symm, Nat.zero_le _, by rw [byteLength_nil]; omega⟩
    | cons d mid =>
      cases hb
      exact Or.inl ⟨before, mid, rfl, hle, hlt⟩

/-- Every byte of a text is one of a character. -/
theorem exists_holdsAt {cs : List Char} {i : Nat} (h : i < byteLength cs) :
    ∃ c, HoldsAt cs i c := by
  induction cs generalizing i with
  | nil => exact absurd h (Nat.not_lt_zero i)
  | cons d cs ih =>
    by_cases hi : i < d.utf8Size
    · exact ⟨d, [], cs, rfl, Nat.zero_le _, by simpa using hi⟩
    · rw [byteLength_cons] at h
      obtain ⟨c, hc⟩ := ih (i := i - d.utf8Size) (by omega)
      have hsum : d.utf8Size + (i - d.utf8Size) = i := by omega
      exact ⟨c, hsum ▸ holdsAt_cons hc⟩

end LayoutLex.Text
