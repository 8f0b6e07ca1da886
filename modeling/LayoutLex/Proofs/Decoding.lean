import LayoutLex.Text.Utf8

/-!
# Reading back the bytes of a text

The bytes of a text, read as UTF-8, are the text again. A character below 128 is one byte with its
number, and all bytes of any other character are 128 or more. So a class of characters below 128
can be looked for among the bytes.

Results:
* `decodeLossy_encode`, `decode?_encode`: the bytes of a text give the text.
* `decode?_eq_some_iff`: no other bytes give it.
* `ofUInt8_of_mem_utf8EncodeChar`: the bytes of a character are in a class below 128 exactly if the
  character is.
-/

namespace LayoutLex.Text

/-! ## Decoding -/

theorem toNat_ofNat_of_lt {n : Nat} (h : n < 256) : (UInt8.ofNat n).toNat = n := by
  rw [UInt8.toNat_ofNat']
  exact Nat.mod_eq_of_lt h

/-- A byte in its range is read. -/
theorem complete_cons {low high : UInt8} {n : Nat} (hn : n < 256) (hlow : low.toNat ≤ n)
    (hhigh : n ≤ high.toNat) (value : Nat) (more : List (UInt8 × UInt8)) (bs : List UInt8) :
    complete value ((low, high) :: more) (UInt8.ofNat n :: bs) =
      complete (value * 64 + (n - 0x80)) more bs := by
  have hin : (low ≤ UInt8.ofNat n && UInt8.ofNat n ≤ high) = true := by
    simp only [Bool.and_eq_true, decide_eq_true_eq, UInt8.le_iff_toNat_le, toNat_ofNat_of_lt hn]
    exact ⟨hlow, hhigh⟩
  rw [complete, if_pos hin, toNat_ofNat_of_lt hn]

theorem decodeUnits_cons {b : UInt8} {value : Nat} {ranges : List (UInt8 × UInt8)}
    (h : announced b = some (value, ranges)) (bs : List UInt8) :
    decodeUnits (b :: bs) =
      (complete value ranges bs).1.map Char.ofNat :: decodeUnits (complete value ranges bs).2 := by
  rw [decodeUnits, h]

/-- The bytes of a character give the character. -/
theorem decodeUnits_utf8EncodeChar (c : Char) (bs : List UInt8) :
    decodeUnits (String.utf8EncodeChar c ++ bs) = some c :: decodeUnits bs := by
  have hc : Char.ofNat c.val.toNat = c := Char.ofNat_toNat c
  have hvalid : c.val.toNat < 0xD800 ∨ (0xDFFF < c.val.toNat ∧ c.val.toNat < 0x110000) := c.valid
  unfold String.utf8EncodeChar
  generalize c.val.toNat = v at *
  dsimp only
  split
  · have hlead : announced (UInt8.ofNat v) = some (v, []) := by
      unfold announced
      grind [toNat_ofNat_of_lt]
    rw [List.singleton_append, decodeUnits_cons hlead, complete, Option.map_some, hc]
  split
  · have hlead : announced (UInt8.ofNat (v / 64 % 32 + 192)) = some (v / 64, [(0x80, 0xBF)]) := by
      unfold announced
      grind [toNat_ofNat_of_lt]
    simp only [List.cons_append, List.nil_append, decodeUnits_cons hlead]
    rw [complete_cons (by omega) (by simp) (by simp; omega), complete, Option.map_some,
      show v / 64 * 64 + (v % 64 + 128 - 0x80) = v by omega, hc]
  split
  · obtain ⟨low, high, hlead, hlow, hhigh⟩ : ∃ low high : UInt8,
        announced (UInt8.ofNat (v / 4096 % 16 + 224)) =
          some (v / 4096, [(low, high), (0x80, 0xBF)]) ∧
        low.toNat ≤ v / 64 % 64 + 128 ∧ v / 64 % 64 + 128 ≤ high.toNat := by
      unfold announced
      rw [toNat_ofNat_of_lt (by omega)]
      by_cases hfirst : v / 4096 = 0
      · exact ⟨0xA0, 0xBF, by simp [hfirst], by simp; omega, by simp; omega⟩
      by_cases hsurrogate : v / 4096 = 13
      · exact ⟨0x80, 0x9F, by simp [hsurrogate], by simp, by simp; omega⟩
      · exact ⟨0x80, 0xBF, by grind, by simp, by simp; omega⟩
    simp only [List.cons_append, List.nil_append, decodeUnits_cons hlead]
    rw [complete_cons (by omega) hlow hhigh, complete_cons (by omega) (by simp) (by simp; omega),
      complete, Option.map_some,
      show (v / 4096 * 64 + (v / 64 % 64 + 128 - 0x80)) * 64 + (v % 64 + 128 - 0x80) = v by omega,
      hc]
  · obtain ⟨low, high, hlead, hlow, hhigh⟩ : ∃ low high : UInt8,
        announced (UInt8.ofNat (v / 262144 % 8 + 240)) =
          some (v / 262144, [(low, high), (0x80, 0xBF), (0x80, 0xBF)]) ∧
        low.toNat ≤ v / 4096 % 64 + 128 ∧ v / 4096 % 64 + 128 ≤ high.toNat := by
      unfold announced
      rw [toNat_ofNat_of_lt (by omega)]
      by_cases hfirst : v / 262144 = 0
      · exact ⟨0x90, 0xBF, by simp [hfirst], by simp; omega, by simp; omega⟩
      by_cases hlast : v / 262144 = 4
      · exact ⟨0x80, 0x8F, by simp [hlast], by simp, by simp; omega⟩
      · exact ⟨0x80, 0xBF, by grind, by simp, by simp; omega⟩
    simp only [List.cons_append, List.nil_append, decodeUnits_cons hlead]
    rw [complete_cons (by omega) hlow hhigh, complete_cons (by omega) (by simp) (by simp; omega),
      complete_cons (by omega) (by simp) (by simp; omega), complete, Option.map_some,
      show ((v / 262144 * 64 + (v / 4096 % 64 + 128 - 0x80)) * 64 + (v / 64 % 64 + 128 - 0x80)) * 64
        + (v % 64 + 128 - 0x80) = v by omega, hc]

/-- Only the empty text has no bytes. -/
theorem eq_nil_of_encode_eq_nil {cs : List Char} (h : encode cs = []) : cs = [] := by
  cases cs with
  | nil => rfl
  | cons c cs =>
    rw [encode, List.flatMap_cons, List.append_eq_nil_iff] at h
    exact absurd h.1 String.utf8EncodeChar_ne_nil

theorem decodeUnits_encode (cs : List Char) : decodeUnits (encode cs) = cs.map some := by
  induction cs with
  | nil => rw [encode, List.flatMap_nil, decodeUnits, List.map_nil]
  | cons c cs ih =>
    rw [encode, List.flatMap_cons, ← encode, decodeUnits_utf8EncodeChar, ih, List.map_cons]

/-- **The bytes of a text give the text.** -/
theorem decodeLossy_encode (cs : List Char) : decodeLossy (encode cs) = cs := by
  rw [decodeLossy, decodeUnits_encode, List.map_map]
  exact List.map_id _

/-- The bytes of a text are accepted. -/
theorem decode?_encode (cs : List Char) : decode? (encode cs) = some cs := by
  rw [decode?, decodeUnits_encode, List.mapM_map]
  exact List.mapM_pure.trans (congrArg some (List.map_id cs))

/-! ## Only the bytes of a text give a text -/

theorem toNat_ofNat_of_isValidChar {v : Nat} (h : v.isValidChar) :
    (Char.ofNat v).val.toNat = v := by
  rw [Char.ofNat, dif_pos h]
  rfl

theorem ofNat_eq {n : Nat} {b : UInt8} (h : n = b.toNat) : UInt8.ofNat n = b := by
  rw [h, UInt8.ofNat_toNat]

/-- Continuation bytes are between 0x80 and 0xBF. -/
def IsContinuation (b : UInt8) : Prop :=
  0x80 ≤ b.toNat ∧ b.toNat ≤ 0xBF

/-- Two bytes are those of the character with their number. -/
theorem utf8EncodeChar_two {b b₁ : UInt8} (hb : 0xC2 ≤ b.toNat ∧ b.toNat < 0xE0)
    (h₁ : IsContinuation b₁) :
    String.utf8EncodeChar (Char.ofNat ((b.toNat - 0xC0) * 64 + (b₁.toNat - 0x80))) = [b, b₁] := by
  obtain ⟨hlow, hhigh⟩ := h₁
  have hvalue := toNat_ofNat_of_isValidChar
    (v := (b.toNat - 0xC0) * 64 + (b₁.toNat - 0x80)) (Or.inl (by omega))
  generalize hv : (b.toNat - 0xC0) * 64 + (b₁.toNat - 0x80) = v at hvalue ⊢
  rw [String.utf8EncodeChar, hvalue, if_neg (by omega), if_pos (by omega),
    ofNat_eq (b := b) (by omega), ofNat_eq (b := b₁) (by omega)]

theorem utf8EncodeChar_three {b b₁ b₂ : UInt8} {v : Nat} (hb : 0xE0 ≤ b.toNat ∧ b.toNat < 0xF0)
    (h₁ : IsContinuation b₁) (h₂ : IsContinuation b₂)
    (hv : v = ((b.toNat - 0xE0) * 64 + (b₁.toNat - 0x80)) * 64 + (b₂.toNat - 0x80))
    (hvalid : 0x7FF < v ∧ (v < 0xD800 ∨ 0xDFFF < v)) :
    String.utf8EncodeChar (Char.ofNat v) = [b, b₁, b₂] := by
  obtain ⟨hlow₁, hhigh₁⟩ := h₁
  obtain ⟨hlow₂, hhigh₂⟩ := h₂
  have hvalue := toNat_ofNat_of_isValidChar (hvalid.2.imp_right fun h => ⟨h, by omega⟩)
  rw [String.utf8EncodeChar, hvalue, if_neg (by omega), if_neg (by omega), if_pos (by omega),
    ofNat_eq (b := b) (by omega), ofNat_eq (b := b₁) (by omega), ofNat_eq (b := b₂) (by omega)]

theorem utf8EncodeChar_four {b b₁ b₂ b₃ : UInt8} {v : Nat} (hb : 0xF0 ≤ b.toNat ∧ b.toNat ≤ 0xF4)
    (h₁ : IsContinuation b₁) (h₂ : IsContinuation b₂) (h₃ : IsContinuation b₃)
    (hv : v = (((b.toNat - 0xF0) * 64 + (b₁.toNat - 0x80)) * 64 + (b₂.toNat - 0x80)) * 64 +
      (b₃.toNat - 0x80))
    (hvalid : 0xFFFF < v ∧ v < 0x110000) :
    String.utf8EncodeChar (Char.ofNat v) = [b, b₁, b₂, b₃] := by
  obtain ⟨hlow₁, hhigh₁⟩ := h₁
  obtain ⟨hlow₂, hhigh₂⟩ := h₂
  obtain ⟨hlow₃, hhigh₃⟩ := h₃
  have hvalue := toNat_ofNat_of_isValidChar (v := v) (Or.inr ⟨by omega, hvalid.2⟩)
  rw [String.utf8EncodeChar, hvalue, if_neg (by omega), if_neg (by omega), if_neg (by omega),
    ofNat_eq (b := b) (by omega), ofNat_eq (b := b₁) (by omega), ofNat_eq (b := b₂) (by omega),
    ofNat_eq (b := b₃) (by omega)]

/-- What completes a character starts with a byte in the first range. -/
theorem exists_of_complete_cons {value v : Nat} {low high : UInt8} {more : List (UInt8 × UInt8)}
    {bs rest : List UInt8} (h : complete value ((low, high) :: more) bs = (some v, rest)) :
    ∃ b tail, bs = b :: tail ∧ (low.toNat ≤ b.toNat ∧ b.toNat ≤ high.toNat) ∧
      complete (value * 64 + (b.toNat - 0x80)) more tail = (some v, rest) := by
  cases bs with
  | nil => cases h
  | cons b tail =>
    rw [complete] at h
    split at h
    · next hin =>
      simp only [Bool.and_eq_true, decide_eq_true_eq, UInt8.le_iff_toNat_le] at hin
      exact ⟨b, tail, rfl, hin, h⟩
    · cases h

theorem eq_of_complete_nil {value v : Nat} {bs rest : List UInt8}
    (h : complete value [] bs = (some v, rest)) : v = value ∧ bs = rest := by
  rw [complete, Prod.mk.injEq, Option.some.injEq] at h
  exact ⟨h.1.symm, h.2⟩

/-- The first bytes of characters of one, two, three and four bytes. In the two longer kinds the
second byte has a range of its own, which keeps out what fewer bytes can write, surrogates and what
is past the last character. -/
theorem announced_cases {b : UInt8} {value : Nat} {ranges : List (UInt8 × UInt8)}
    (h : announced b = some (value, ranges)) :
    (b.toNat < 0x80 ∧ value = b.toNat ∧ ranges = []) ∨
    ((0xC2 ≤ b.toNat ∧ b.toNat < 0xE0) ∧ value = b.toNat - 0xC0 ∧ ranges = [(0x80, 0xBF)]) ∨
    ((0xE0 ≤ b.toNat ∧ b.toNat < 0xF0) ∧ value = b.toNat - 0xE0 ∧ ∃ low high : UInt8,
      ranges = [(low, high), (0x80, 0xBF)] ∧ 0x80 ≤ low.toNat ∧ high.toNat ≤ 0xBF ∧
        (b.toNat = 0xE0 → low.toNat = 0xA0) ∧ (b.toNat = 0xED → high.toNat = 0x9F)) ∨
    ((0xF0 ≤ b.toNat ∧ b.toNat ≤ 0xF4) ∧ value = b.toNat - 0xF0 ∧ ∃ low high : UInt8,
      ranges = [(low, high), (0x80, 0xBF), (0x80, 0xBF)] ∧ 0x80 ≤ low.toNat ∧ high.toNat ≤ 0xBF ∧
        (b.toNat = 0xF0 → low.toNat = 0x90) ∧ (b.toNat = 0xF4 → high.toNat = 0x8F)) := by
  unfold announced at h
  grind

/-- **The bytes that give a character are its bytes.** -/
theorem utf8EncodeChar_of_complete {b : UInt8} {bs rest : List UInt8} {value v : Nat}
    {ranges : List (UInt8 × UInt8)} (hb : announced b = some (value, ranges))
    (h : complete value ranges bs = (some v, rest)) :
    String.utf8EncodeChar (Char.ofNat v) ++ rest = b :: bs := by
  rcases announced_cases hb with ⟨hlt, hvalue, rfl⟩ | ⟨hlead, hvalue, rfl⟩ |
    ⟨hlead, hvalue, low, high, rfl, hlow, hhigh, hfirst, hlast⟩ |
    ⟨hlead, hvalue, low, high, rfl, hlow, hhigh, hfirst, hlast⟩
  · obtain ⟨hv, rfl⟩ := eq_of_complete_nil h
    rw [hv, hvalue, String.utf8EncodeChar, toNat_ofNat_of_isValidChar (Or.inl (by omega)),
      if_pos (by omega), ofNat_eq rfl, List.singleton_append]
  · obtain ⟨b₁, tail, rfl, h₁, h⟩ := exists_of_complete_cons h
    obtain ⟨hv, rfl⟩ := eq_of_complete_nil h
    rw [hv, hvalue, utf8EncodeChar_two hlead h₁, List.cons_append, List.singleton_append]
  · obtain ⟨b₁, tail, rfl, h₁, h⟩ := exists_of_complete_cons h
    obtain ⟨b₂, tail, rfl, h₂, h⟩ := exists_of_complete_cons h
    obtain ⟨hv, rfl⟩ := eq_of_complete_nil h
    have hcontinue₂ : IsContinuation b₂ := h₂
    obtain ⟨hlow₂, hhigh₂⟩ := hcontinue₂
    rw [hvalue] at hv
    rw [utf8EncodeChar_three hlead ⟨by omega, by omega⟩ h₂ hv (by omega)]
    rfl
  · obtain ⟨b₁, tail, rfl, h₁, h⟩ := exists_of_complete_cons h
    obtain ⟨b₂, tail, rfl, h₂, h⟩ := exists_of_complete_cons h
    obtain ⟨b₃, tail, rfl, h₃, h⟩ := exists_of_complete_cons h
    obtain ⟨hv, rfl⟩ := eq_of_complete_nil h
    have hcontinue₂ : IsContinuation b₂ := h₂
    have hcontinue₃ : IsContinuation b₃ := h₃
    obtain ⟨hlow₂, hhigh₂⟩ := hcontinue₂
    obtain ⟨hlow₃, hhigh₃⟩ := hcontinue₃
    rw [hvalue] at hv
    rw [utf8EncodeChar_four hlead ⟨by omega, by omega⟩ h₂ h₃ hv (by omega)]
    rfl

theorem encode_of_decodeUnits {bs : List UInt8} {cs : List Char}
    (h : decodeUnits bs = cs.map some) : encode cs = bs := by
  fun_induction decodeUnits bs generalizing cs with
  | case1 =>
    rw [List.map_eq_nil_iff.mp h.symm]
    rfl
  | case2 b bs hb ih =>
    obtain ⟨c, cs, -, hc, -⟩ := List.map_eq_cons_iff.mp h.symm
    cases hc
  | case3 b bs value ranges hb ih =>
    obtain ⟨c, cs, rfl, hc, hcs⟩ := List.map_eq_cons_iff.mp h.symm
    obtain ⟨v, hv, rfl⟩ := Option.map_eq_some_iff.mp hc.symm
    rw [encode, List.flatMap_cons, ← encode, ih hcs.symm]
    exact utf8EncodeChar_of_complete hb (Prod.ext hv rfl)

theorem eq_map_some_of_mapM {units : List (Option Char)} {cs : List Char}
    (h : units.mapM id = some cs) : units = cs.map some := by
  induction units generalizing cs with
  | nil =>
    cases h
    rfl
  | cons unit units ih =>
    rw [List.mapM_cons] at h
    obtain ⟨c, hc, h⟩ := Option.bind_eq_some_iff.mp h
    obtain ⟨tail, htail, h⟩ := Option.bind_eq_some_iff.mp h
    cases h
    rw [List.map_cons, ← ih htail]
    exact congrArg (· :: units) hc

/-- **Only the bytes of a text are accepted.** -/
theorem decode?_eq_some_iff {bs : List UInt8} {cs : List Char} :
    decode? bs = some cs ↔ bs = encode cs := by
  constructor
  · intro h
    exact (encode_of_decodeUnits (eq_map_some_of_mapM h)).symm
  · rintro rfl
    exact decode?_encode cs

theorem decode?_eq_none_iff {bs : List UInt8} : decode? bs = none ↔ ∀ cs, bs ≠ encode cs := by
  rw [Option.eq_none_iff_forall_ne_some]
  simp only [ne_eq, decode?_eq_some_iff]

/-! ## Bytes below 128 -/

/-- All characters of the class are below 128. -/
def IsAscii (p : Char → Bool) : Prop :=
  ∀ c, p c = true → c.toNat < 128

theorem utf8EncodeChar_of_lt {c : Char} (h : c.toNat < 128) :
    String.utf8EncodeChar c = [c.toUInt8] := by
  have hv : c.val.toNat ≤ 127 := Nat.le_of_lt_succ h
  rw [String.utf8EncodeChar, if_pos hv]
  rfl

theorem ofUInt8_toUInt8 {c : Char} (h : c.toNat < 128) : Char.ofUInt8 c.toUInt8 = c := by
  have hv : c.val.toNat < 256 := Nat.lt_trans h (by decide)
  have hval : (Char.ofUInt8 c.toUInt8).val = c.val.toUInt8.toUInt32 := rfl
  apply Char.ext
  apply UInt32.toNat_inj.mp
  rw [hval, UInt8.toNat_toUInt32, UInt32.toNat_toUInt8]
  exact Nat.mod_eq_of_lt hv

theorem le_of_mem_utf8EncodeChar {c : Char} (h : 128 ≤ c.toNat) {b : UInt8}
    (hb : b ∈ String.utf8EncodeChar c) : 128 ≤ b.toNat := by
  have hv : ¬ c.val.toNat ≤ 127 := Nat.not_le_of_lt h
  simp only [String.utf8EncodeChar, if_neg hv] at hb
  generalize c.val.toNat = v at hb
  split at hb
  · simp only [List.mem_cons, List.not_mem_nil, or_false] at hb
    rcases hb with rfl | rfl <;> rw [toNat_ofNat_of_lt (by omega)] <;> omega
  split at hb
  · simp only [List.mem_cons, List.not_mem_nil, or_false] at hb
    rcases hb with rfl | rfl | rfl <;> rw [toNat_ofNat_of_lt (by omega)] <;> omega
  · simp only [List.mem_cons, List.not_mem_nil, or_false] at hb
    rcases hb with rfl | rfl | rfl | rfl <;> rw [toNat_ofNat_of_lt (by omega)] <;> omega

/-- A byte of a character is in a class below 128 exactly if the character is. -/
theorem ofUInt8_of_mem_utf8EncodeChar {p : Char → Bool} (hp : IsAscii p) {c : Char} {b : UInt8}
    (hb : b ∈ String.utf8EncodeChar c) : p (Char.ofUInt8 b) = p c := by
  by_cases hc : c.toNat < 128
  · rw [utf8EncodeChar_of_lt hc, List.mem_singleton] at hb
    rw [hb, ofUInt8_toUInt8 hc]
  · have hlarge : ∀ d : Char, 128 ≤ d.toNat → p d = false := by
      intro d hd
      rw [Bool.eq_false_iff]
      intro hpd
      exact absurd (hp d hpd) (Nat.not_lt_of_le hd)
    have hc : 128 ≤ c.toNat := Nat.le_of_not_lt hc
    have hbyte : 128 ≤ (Char.ofUInt8 b).toNat := le_of_mem_utf8EncodeChar hc hb
    rw [hlarge c hc, hlarge _ hbyte]

theorem encode_cons_of_lt {c : Char} (h : c.toNat < 128) (cs : List Char) :
    encode (c :: cs) = c.toUInt8 :: encode cs := by
  rw [encode, List.flatMap_cons, utf8EncodeChar_of_lt h]
  rfl

theorem not_of_mem_encode {p : Char → Bool} (hp : IsAscii p) {cs : List Char}
    (h : ∀ c ∈ cs, p c = false) {b : UInt8} (hb : b ∈ encode cs) : p (Char.ofUInt8 b) = false := by
  obtain ⟨c, hc, hbc⟩ := List.mem_flatMap.mp hb
  rw [ofUInt8_of_mem_utf8EncodeChar hp hbc, h c hc]

/-- A character below 128 that a text does not have is no byte of the text. -/
theorem not_mem_encode {d : Char} (hd : d.toNat < 128) {cs : List Char} (h : d ∉ cs) :
    d.toUInt8 ∉ encode cs := by
  intro hmem
  have hascii : IsAscii (· == d) := by
    intro c hc
    rwa [beq_iff_eq.mp hc]
  have hne : ∀ c ∈ cs, (c == d) = false := by
    intro c hc
    rw [beq_eq_false_iff_ne]
    rintro rfl
    exact h hc
  have hfalse := not_of_mem_encode hascii hne hmem
  rw [ofUInt8_toUInt8 hd, beq_self_eq_true] at hfalse
  cases hfalse

theorem mem_encode {d : Char} (hd : d.toNat < 128) {cs : List Char} (h : d ∈ cs) :
    d.toUInt8 ∈ encode cs := by
  refine List.mem_flatMap.mpr ⟨d, h, ?_⟩
  rw [utf8EncodeChar_of_lt hd]
  exact List.mem_cons_self

/-- Bytes that end with a character below 128 are those of a text that ends with it. -/
theorem encode_eq_concat {d : Char} (hd : d.toNat < 128) {cs : List Char} {bs : List UInt8}
    (h : encode cs = bs ++ [d.toUInt8]) : ∃ init, cs = init ++ [d] ∧ encode init = bs := by
  rcases cs.eq_nil_or_concat with rfl | ⟨init, last, rfl⟩
  · simp [encode] at h
  rw [List.concat_eq_append] at h ⊢
  have hsplit : encode init ++ String.utf8EncodeChar last = bs ++ [d.toUInt8] := by
    rw [← h, encode, encode, List.flatMap_append, List.flatMap_singleton]
  by_cases hlast : last.toNat < 128
  · rw [utf8EncodeChar_of_lt hlast] at hsplit
    obtain ⟨hinit, hbyte⟩ := List.append_inj' hsplit rfl
    have hsame : last = d := by
      rw [← ofUInt8_toUInt8 hlast, (List.cons.inj hbyte).1, ofUInt8_toUInt8 hd]
    exact ⟨init, by rw [hsame], hinit⟩
  · -- The bytes of a longer character are all 128 or more.
    have hne := String.utf8EncodeChar_ne_nil (c := last)
    have hmem : d.toUInt8 ∈ String.utf8EncodeChar last := by
      have hget := congrArg List.getLast? hsplit
      rw [List.getLast?_append, List.getLast?_concat, List.getLast?_eq_some_getLast hne] at hget
      rw [← Option.some.inj hget]
      exact List.getLast_mem hne
    have hlarge := le_of_mem_utf8EncodeChar (Nat.le_of_not_lt hlast) hmem
    have hsmall := ofUInt8_toUInt8 hd
    have hbyte : d.toUInt8.toNat = d.toNat % 256 := UInt32.toNat_toUInt8 d.val
    omega

end LayoutLex.Text
