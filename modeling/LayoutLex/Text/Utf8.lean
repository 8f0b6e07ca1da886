/-!
# UTF-8

Byte lengths, the bytes of a text and the text of some bytes. All offsets of the library count
bytes of this encoding.

* `decodeUnits` reads bytes from the left: a well-formed sequence gives its character, and each
  longest part of a sequence that cannot be completed gives one `none`.
* `decodeLossy` writes U+FFFD for each `none`; `decode?` refuses text that has one.
-/

namespace LayoutLex.Text

/-- The number of bytes of a text. -/
def byteLength (cs : List Char) : Nat :=
  cs.foldr (fun c n => c.utf8Size + n) 0

@[simp] theorem byteLength_nil : byteLength [] = 0 := rfl

@[simp] theorem byteLength_cons (c : Char) (cs : List Char) :
    byteLength (c :: cs) = c.utf8Size + byteLength cs := rfl

@[simp] theorem byteLength_append (a b : List Char) :
    byteLength (a ++ b) = byteLength a + byteLength b := by
  induction a with
  | nil => rw [List.nil_append, byteLength_nil, Nat.zero_add]
  | cons c a ih => rw [List.cons_append, byteLength_cons, byteLength_cons, ih, Nat.add_assoc]

/-- Text that is not empty has bytes. -/
theorem byteLength_pos {cs : List Char} (h : cs ≠ []) : 0 < byteLength cs := by
  cases cs with
  | nil => exact absurd rfl h
  | cons c cs =>
    have := c.utf8Size_pos
    simp only [byteLength_cons]
    omega

/-- The bytes of a text. -/
def encode (cs : List Char) : List UInt8 :=
  cs.flatMap String.utf8EncodeChar

/-! ## Decoding -/

/-- What a first byte announces: the value bits it carries and the range of each byte to come.
`none` for a byte that starts no sequence. The ranges of the second byte leave out overlong
forms, surrogates and numbers past U+10FFFF. -/
def announced (b : UInt8) : Option (Nat × List (UInt8 × UInt8)) :=
  let n := b.toNat
  if n < 0x80 then some (n, [])
  else if n < 0xC2 then none
  else if n < 0xE0 then some (n - 0xC0, [(0x80, 0xBF)])
  else if n == 0xE0 then some (0, [(0xA0, 0xBF), (0x80, 0xBF)])
  else if n == 0xED then some (0xD, [(0x80, 0x9F), (0x80, 0xBF)])
  else if n < 0xF0 then some (n - 0xE0, [(0x80, 0xBF), (0x80, 0xBF)])
  else if n == 0xF0 then some (0, [(0x90, 0xBF), (0x80, 0xBF), (0x80, 0xBF)])
  else if n < 0xF4 then some (n - 0xF0, [(0x80, 0xBF), (0x80, 0xBF), (0x80, 0xBF)])
  else if n == 0xF4 then some (4, [(0x80, 0x8F), (0x80, 0xBF), (0x80, 0xBF)])
  else none

/-- Reads the announced bytes, stopping before the first that is out of its range. -/
def complete (value : Nat) : List (UInt8 × UInt8) → List UInt8 → Option Nat × List UInt8
  | [], bs => (some value, bs)
  | _ :: _, [] => (none, [])
  | (low, high) :: more, b :: bs =>
    if low ≤ b && b ≤ high then complete (value * 64 + (b.toNat - 0x80)) more bs
    else (none, b :: bs)

theorem length_complete_le (value : Nat) (ranges : List (UInt8 × UInt8)) (bs : List UInt8) :
    (complete value ranges bs).2.length ≤ bs.length := by
  fun_induction complete value ranges bs with
  | case1 => exact Nat.le_refl _
  | case2 => exact Nat.le_refl _
  | case3 _ _ _ _ _ _ _ ih => exact Nat.le_trans ih (Nat.le_succ _)
  | case4 => exact Nat.le_refl _

/-- The characters of some bytes, `none` for each part that is no character. -/
def decodeUnits : List UInt8 → List (Option Char)
  | [] => []
  | b :: bs =>
    match announced b with
    | none => none :: decodeUnits bs
    | some (value, ranges) =>
      (complete value ranges bs).1.map Char.ofNat :: decodeUnits (complete value ranges bs).2
termination_by bs => bs.length
decreasing_by
  · simp
  · exact Nat.lt_succ_of_le (length_complete_le _ _ _)

/-- The text of some bytes, with U+FFFD for each part that is no character. -/
def decodeLossy (bs : List UInt8) : List Char :=
  (decodeUnits bs).map (·.getD '\uFFFD')

/-- The text of some bytes, if they are the bytes of a text. -/
def decode? (bs : List UInt8) : Option (List Char) :=
  (decodeUnits bs).mapM id

end LayoutLex.Text
