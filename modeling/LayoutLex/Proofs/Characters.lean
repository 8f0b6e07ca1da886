import LayoutLex.Literal.Character
import Mathlib.Data.List.Induction
import Mathlib.Data.Nat.Digits.Defs

/-!
# Which texts are characters

A constant in angle brackets is a name of the table or octal digits. The digits are read into a byte
one after another, and a digit that would push the code out of the byte ends it; since no further
digit can bring the code back, what is read is the number that the digits denote, if that fits.

* `Named` and `Octal` are the two kinds of constants, said without the functions that read them.
* `octalNumber` is what octal digits denote.

Results:
* `octalCode?_eq_some_iff`: which digits are read, and as which code.
* `constantCode?_eq_some_iff`: which texts are constants, and of which code.
* `character?_texts`: that, and what texts that are one character or no constant stand for.
-/

namespace LayoutLex.Literal

/-- An octal digit. -/
def IsOctal (c : Char) : Prop :=
  '0' ≤ c ∧ c ≤ '7'

instance (c : Char) : Decidable (IsOctal c) :=
  inferInstanceAs (Decidable (_ ∧ _))

/-- The number that octal digits denote, the highest first. -/
def octalNumber (ds : List Char) : Nat :=
  Nat.ofDigits 8 (ds.reverse.map fun d => d.toNat - '0'.toNat)

/-- The text is a name of the table in angle brackets, and the code belongs to the name. -/
def Named (text : List Char) (code : UInt8) : Prop :=
  ∃ name, (name, code) ∈ namedCodes ∧ text = '<' :: (name.toList ++ ['>'])

/-- The text is octal digits in angle brackets, and they denote the code. -/
def Octal (text : List Char) (code : UInt8) : Prop :=
  ∃ ds, ds ≠ [] ∧ (∀ d ∈ ds, IsOctal d) ∧ text = '<' :: (ds ++ ['>']) ∧
    octalNumber ds = code.toNat

/-! ## Octal digits -/

theorem octalNumber_concat (ds : List Char) (d : Char) :
    octalNumber (ds ++ [d]) = 8 * octalNumber ds + (d.toNat - '0'.toNat) := by
  unfold octalNumber
  rw [List.reverse_concat, List.map_cons, Nat.ofDigits_cons, Nat.add_comm]

theorem pushOctal?_eq_some_iff {code pushed : UInt8} {d : Char} :
    pushOctal? code d = some pushed ↔
      IsOctal d ∧ pushed.toNat = 8 * code.toNat + (d.toNat - '0'.toNat) := by
  unfold pushOctal? IsOctal
  by_cases hoctal : '0' ≤ d ∧ d ≤ '7'
  · rw [if_pos hoctal, and_iff_right hoctal]
    dsimp only
    by_cases hfits : 8 * code.toNat + (d.toNat - 0x30) < 256
    · rw [if_pos hfits, Option.some.injEq, ← UInt8.toNat_inj, UInt8.toNat_ofNat_of_lt' hfits,
        eq_comm]
      rfl
    · rw [if_neg hfits]
      have hpushed : pushed.toNat < 256 := pushed.toNat_lt
      have hzero : '0'.toNat = 0x30 := rfl
      rw [hzero]
      constructor
      · intro h
        cases h
      · intro h
        omega
  · rw [if_neg hoctal]
    simp [hoctal]

theorem octalCode?_concat (ds : List Char) (d : Char) :
    octalCode? (ds ++ [d]) = (octalCode? ds).bind (pushOctal? · d) := by
  unfold octalCode?
  rw [List.foldlM_append]
  simp

/-- **The code that is read is the number that the digits denote.** A digit is refused only when the
number has become too great for a byte, and with more digits it only grows. -/
theorem octalCode?_eq_some_iff {ds : List Char} {code : UInt8} :
    octalCode? ds = some code ↔ (∀ d ∈ ds, IsOctal d) ∧ octalNumber ds = code.toNat := by
  induction ds using List.reverseRecOn generalizing code with
  | nil =>
    have hzero : octalNumber [] = (0 : UInt8).toNat := rfl
    rw [hzero, UInt8.toNat_inj]
    simp [octalCode?]
  | append_singleton ds d ih =>
    rw [octalCode?_concat, Option.bind_eq_some_iff, octalNumber_concat]
    simp only [ih, pushOctal?_eq_some_iff, List.forall_mem_append, List.forall_mem_singleton]
    constructor
    · rintro ⟨before, ⟨hds, hbefore⟩, hd, hcode⟩
      exact ⟨⟨hds, hd⟩, by rw [hbefore, hcode]⟩
    · rintro ⟨⟨hds, hd⟩, hcode⟩
      -- The digits before the last one denote a smaller number, so they have been read.
      have hlt : octalNumber ds < 256 := by
        have := code.toNat_lt
        omega
      refine ⟨UInt8.ofNat (octalNumber ds), ⟨hds, ?_⟩, hd, ?_⟩
      · rw [UInt8.toNat_ofNat_of_lt' hlt]
      · rw [UInt8.toNat_ofNat_of_lt' hlt, hcode]

/-! ## Names -/

/-- No two entries of the table have one name: the first one with a name is the only one. -/
theorem find?_namedCodes {entry : String × UInt8} (h : entry ∈ namedCodes) :
    namedCodes.find? (·.1.toList == entry.1.toList) = some entry := by
  have hall : ∀ entry ∈ namedCodes,
      namedCodes.find? (·.1.toList == entry.1.toList) = some entry := by decide
  exact hall entry h

/-- A name of the table is no octal digits. -/
theorem not_isOctal_of_mem_namedCodes {entry : String × UInt8} (h : entry ∈ namedCodes) :
    ¬ ∀ d ∈ entry.1.toList, IsOctal d := by
  have hall : ∀ entry ∈ namedCodes, ¬ ∀ d ∈ entry.1.toList, IsOctal d := by
    simp [namedCodes, IsOctal]
  exact hall entry h

theorem bracketedCode?_eq_some_iff {inner : List Char} {code : UInt8} :
    bracketedCode? inner = some code ↔
      (∃ name, (name, code) ∈ namedCodes ∧ inner = name.toList) ∨
        (inner ≠ [] ∧ (∀ d ∈ inner, IsOctal d) ∧ octalNumber inner = code.toNat) := by
  unfold bracketedCode?
  cases hfind : namedCodes.find? (·.1.toList == inner) with
  | some entry =>
    have hmem : entry ∈ namedCodes := List.mem_of_find?_eq_some hfind
    have hname : entry.1.toList = inner := by simpa using List.find?_some hfind
    constructor
    · intro h
      cases h
      exact Or.inl ⟨entry.1, hmem, hname.symm⟩
    · rintro (⟨name, hentry, rfl⟩ | ⟨-, hoctal, -⟩)
      · rw [find?_namedCodes hentry, Option.some.injEq] at hfind
        rw [← hfind]
      · rw [← hname] at hoctal
        exact absurd hoctal (not_isOctal_of_mem_namedCodes hmem)
  | none =>
    have hnot : ¬ ∃ name, (name, code) ∈ namedCodes ∧ inner = name.toList := by
      rintro ⟨name, hentry, rfl⟩
      rw [find?_namedCodes hentry] at hfind
      cases hfind
    rw [or_iff_right hnot]
    by_cases hempty : inner = []
    · simp [hempty]
    · simp [hempty, octalCode?_eq_some_iff]

/-! ## Constants -/

theorem constantCode?_eq_some_iff_bracketed {text : List Char} {code : UInt8} :
    constantCode? text = some code ↔
      ∃ inner, text = '<' :: (inner ++ ['>']) ∧ bracketedCode? inner = some code := by
  constructor
  · intro h
    unfold constantCode? at h
    split at h
    · next rest =>
      by_cases hlast : rest.getLast? = some '>'
      · rw [if_pos hlast] at h
        obtain ⟨inner, rfl⟩ := List.getLast?_eq_some_iff.mp hlast
        rw [List.dropLast_concat] at h
        exact ⟨inner, rfl, h⟩
      · rw [if_neg hlast] at h
        cases h
    · cases h
  · rintro ⟨inner, rfl, h⟩
    rw [constantCode?, if_pos List.getLast?_concat, List.dropLast_concat, h]

/-- **Which texts are constants.** -/
theorem constantCode?_eq_some_iff {text : List Char} {code : UInt8} :
    constantCode? text = some code ↔ Named text code ∨ Octal text code := by
  rw [constantCode?_eq_some_iff_bracketed]
  simp only [bracketedCode?_eq_some_iff]
  constructor
  · rintro ⟨inner, rfl, ⟨name, hentry, rfl⟩ | ⟨hne, hoctal, hnumber⟩⟩
    · exact Or.inl ⟨name, hentry, rfl⟩
    · exact Or.inr ⟨inner, hne, hoctal, rfl, hnumber⟩
  · rintro (⟨name, hentry, rfl⟩ | ⟨ds, hne, hoctal, rfl, hnumber⟩)
    · exact ⟨name.toList, rfl, Or.inl ⟨name, hentry, rfl⟩⟩
    · exact ⟨ds, rfl, Or.inr ⟨hne, hoctal, hnumber⟩⟩

/-- **Which texts are characters.** A constant is a name of the table or octal digits that denote a
byte, with however many zeros in front, in angle brackets, and nothing else. A text of one character
is the character of its code if that is a byte, and none if it is not. Any other text is the
character of the constant that it is, or none. -/
theorem character?_texts :
    (∀ text code, constantCode? text = some code ↔ Named text code ∨ Octal text code) ∧
    (∀ c : Char, c.toNat ≤ 0xFF →
      ∃ code : UInt8, code.toNat = c.toNat ∧ character? [c] = some (.character code)) ∧
    (∀ c : Char, 0xFF < c.toNat → character? [c] = none) ∧
    ∀ text : List Char, text.length ≠ 1 →
      character? text = (constantCode? text).map .character := by
  refine ⟨fun _ _ => constantCode?_eq_some_iff, fun c hc => ?_, fun c hc => ?_,
    fun text htext => ?_⟩
  · have hlt : c.toNat < 256 := Nat.lt_succ_of_le hc
    refine ⟨UInt8.ofNat c.toNat, UInt8.toNat_ofNat_of_lt' hlt, ?_⟩
    rw [character?, characterCode?, if_pos hlt]
    rfl
  · have hge : ¬ c.toNat < 256 := Nat.not_lt_of_le hc
    rw [character?, characterCode?, if_neg hge]
    rfl
  · unfold character? characterCode?
    split
    · next c => exact absurd rfl htext
    · rfl

/-- Zeros in front do not count; the last byte is a character of its own, the next number is not. -/
theorem character?_texts_zeros :
    character? "<000000377>".toList = some (.character 255) ∧
      (∃ code : UInt8, code.toNat = 255 ∧ character? ['ÿ'] = some (.character code)) ∧
      character? ['Ā'] = none := by
  obtain ⟨hconstant, hbyte, hgreat, hother⟩ := character?_texts
  have hoctal : Octal "<000000377>".toList 255 :=
    ⟨"000000377".toList, by decide, by simp [IsOctal], by decide, by decide⟩
  refine ⟨?_, hbyte 'ÿ' (by decide), hgreat 'Ā' (by decide)⟩
  rw [hother _ (by decide), (hconstant _ _).mpr (Or.inr hoctal)]
  rfl

end LayoutLex.Literal
