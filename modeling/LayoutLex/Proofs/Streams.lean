import LayoutLex.Source.Line
import LayoutLex.Source.Text

/-!
# What byte sources do

A byte source is a list of bytes cut in two: those before its position and those to come.
`LawfulByteSource` says so of every operation that a scan uses. A source of lines has all its lines
among the bytes to come, pulled or not, each with a line feed after it; pulling a line only moves
bytes to where they are at hand.

Results:
* `stands_ofText`, `stands_ofLines`: a fresh source has nothing before its position and all its
  bytes to come.
-/

namespace LayoutLex

/-- A byte source whose operations move a position along a fixed list of bytes. -/
class LawfulByteSource (σ : Type) [ByteSource σ] where
  /-- The source stands between the bytes `done` and the bytes `rest`. -/
  Stands : σ → List UInt8 → List UInt8 → Prop
  next_cons : ∀ {s : σ} {done rest : List UInt8} {b : UInt8}, Stands s done (b :: rest) →
    (ByteSource.next? s).1 = some b ∧ Stands (ByteSource.next? s).2 (done ++ [b]) rest
  next_nil : ∀ {s : σ} {done : List UInt8}, Stands s done [] →
    (ByteSource.next? s).1 = none ∧ Stands (ByteSource.next? s).2 done []
  atEnd : ∀ {s : σ} {done rest : List UInt8}, Stands s done rest →
    (ByteSource.atEnd s).1 = rest.isEmpty ∧ Stands (ByteSource.atEnd s).2 done rest
  back : ∀ {s : σ} {done last rest : List UInt8}, Stands s (done ++ last) rest →
    Stands (ByteSource.back s last.length) done (last ++ rest)
  rewind : ∀ {s : σ} {done rest : List UInt8}, Stands s done rest →
    Stands (ByteSource.rewind s) [] (done ++ rest)
  position : ∀ {s : σ} {done rest : List UInt8}, Stands s done rest →
    ByteSource.position s = done.length

namespace LawfulByteSource

variable {σ : Type} [ByteSource σ] [LawfulByteSource σ] {s : σ} {done rest bytes : List UInt8}

/-- The source has these bytes, some before its position and the others to come. -/
def Holds (s : σ) (bytes : List UInt8) : Prop :=
  ∃ done rest, Stands s done rest ∧ done ++ rest = bytes

theorem holds_of_stands (h : Stands s done rest) : Holds s (done ++ rest) :=
  ⟨done, rest, h, rfl⟩

/-- At its start a source has all its bytes to come. -/
theorem Holds.rewind (h : Holds s bytes) : Stands (ByteSource.rewind s) [] bytes := by
  obtain ⟨done, rest, hstands, rfl⟩ := h
  exact LawfulByteSource.rewind hstands

end LawfulByteSource

/-! ## Texts -/

namespace TextSource

/-- The position cuts the bytes of the source in two. -/
def Stands (s : TextSource) (done rest : List UInt8) : Prop :=
  s.bytes.toList = done ++ rest ∧ s.position = done.length

theorem getElem?_of_stands {s : TextSource} {done rest : List UInt8} (h : Stands s done rest) :
    s.bytes[s.position]? = rest.head? := by
  obtain ⟨hbytes, hposition⟩ := h
  rw [← Array.getElem?_toList, hbytes, hposition, List.getElem?_append_right (Nat.le_refl _),
    Nat.sub_self, List.head?_eq_getElem?]

instance : LawfulByteSource TextSource where
  Stands := Stands
  next_cons := by
    intro s done rest b h
    have hbyte : s.bytes[s.position]? = some b := getElem?_of_stands h
    obtain ⟨hbytes, hposition⟩ := h
    simp only [ByteSource.next?, next?, hbyte, Stands, true_and]
    exact ⟨by simpa using hbytes, by simpa using hposition⟩
  next_nil := by
    intro s done h
    have hbyte : s.bytes[s.position]? = none := getElem?_of_stands h
    simpa only [ByteSource.next?, next?, hbyte, true_and] using h
  atEnd := by
    intro s done rest h
    refine ⟨?_, h⟩
    obtain ⟨hbytes, hposition⟩ := h
    have hsize := congrArg List.length hbytes
    rw [Array.length_toList, List.length_append] at hsize
    simp only [ByteSource.atEnd, hposition, hsize]
    cases rest with
    | nil => simp
    | cons b rest => simp
  back := by
    rintro s done last rest ⟨hbytes, hposition⟩
    refine ⟨by simpa [ByteSource.back] using hbytes, ?_⟩
    simp [ByteSource.back, hposition]
  rewind := by
    rintro s done rest ⟨hbytes, -⟩
    exact ⟨hbytes, rfl⟩
  position := fun h => h.2

theorem stands_ofText (text : List Char) :
    LawfulByteSource.Stands (ofText text) [] (Text.encode text) :=
  ⟨rfl, rfl⟩

end TextSource

/-! ## Lines -/

namespace LineSource

/-- The position cuts the bytes at hand and the bytes of the lines to come in two, and is within
the bytes at hand. -/
def Stands (s : LineSource) (done rest : List UInt8) : Prop :=
  s.buffer.toList ++ s.waiting.flatMap lineBytes = done ++ rest ∧ s.position = done.length ∧
    s.position ≤ s.buffer.size

theorem getElem?_of_stands {s : LineSource} {done rest : List UInt8} (h : Stands s done rest)
    (hlt : s.position < s.buffer.size) : s.buffer[s.position]? = rest.head? ∧ rest ≠ [] := by
  obtain ⟨hbytes, hposition, -⟩ := h
  have hbyte : s.buffer[s.position]? = rest.head? := by
    rw [← Array.length_toList] at hlt
    rw [← Array.getElem?_toList, ← List.getElem?_append_left hlt, hbytes, hposition,
      List.getElem?_append_right (Nat.le_refl _), Nat.sub_self, List.head?_eq_getElem?]
  refine ⟨hbyte, ?_⟩
  rintro rfl
  rw [Array.getElem?_eq_getElem hlt] at hbyte
  cases hbyte

/-- A line that is pulled goes where the bytes at hand end. -/
theorem stands_feed {s : LineSource} {done rest : List UInt8} (h : Stands s done rest)
    {line : List Char} {lines : List (List Char)} (hwaiting : s.waiting = line :: lines) :
    Stands (s.feed line lines) done rest ∧
      (s.feed line lines).position < (s.feed line lines).buffer.size := by
  obtain ⟨hbytes, hposition, hle⟩ := h
  rw [hwaiting, List.flatMap_cons, ← List.append_assoc] at hbytes
  have hlt : (s.feed line lines).position < (s.feed line lines).buffer.size := by
    have hline : 0 < (lineBytes line).length := by simp [lineBytes]
    simp only [feed, Array.size_append, List.size_toArray]
    omega
  exact ⟨⟨by simpa [feed] using hbytes, hposition, Nat.le_of_lt hlt⟩, hlt⟩

/-- Where no byte is at hand and no line waits no byte is to come. -/
theorem rest_eq_nil_of_stands {s : LineSource} {done rest : List UInt8} (h : Stands s done rest)
    (hge : ¬ s.position < s.buffer.size) (hwaiting : s.waiting = []) : rest = [] := by
  obtain ⟨hbytes, hposition, hle⟩ := h
  rw [hwaiting, List.flatMap_nil, List.append_nil] at hbytes
  have hsize := congrArg List.length hbytes
  rw [Array.length_toList, List.length_append] at hsize
  exact List.eq_nil_of_length_eq_zero (by omega)

/-- Getting ready to read puts the next byte at hand, unless there is none to come. -/
theorem ready_cases {s : LineSource} {done rest : List UInt8} (h : Stands s done rest) :
    (rest = [] ∧ ∃ r, s.ready = (false, r) ∧ Stands r done rest) ∨
      ∃ r, s.ready = (true, r) ∧ Stands r done rest ∧ r.buffer[r.position]? = rest.head? ∧
        rest ≠ [] := by
  unfold ready
  by_cases hlt : s.position < s.buffer.size
  · obtain ⟨hbyte, hne⟩ := getElem?_of_stands h hlt
    rw [if_pos hlt]
    exact Or.inr ⟨s, rfl, h, hbyte, hne⟩
  · rw [if_neg hlt]
    cases hwaiting : s.waiting with
    | nil =>
      rw [pull_of_nil hwaiting]
      exact Or.inl ⟨rest_eq_nil_of_stands h hlt hwaiting, _, rfl, h⟩
    | cons line lines =>
      obtain ⟨hr, hready⟩ := stands_feed h hwaiting
      obtain ⟨hbyte, hne⟩ := getElem?_of_stands hr hready
      rw [pull_of_cons hwaiting]
      exact Or.inr ⟨_, rfl, hr, hbyte, hne⟩

instance : LawfulByteSource LineSource where
  Stands := Stands
  next_cons := by
    intro s done rest b h
    obtain ⟨hnil, -⟩ | ⟨r, hready, ⟨hbytes, hposition, hle⟩, hbyte, -⟩ := ready_cases h
    · cases hnil
    · obtain ⟨hlt, -⟩ := Array.getElem?_eq_some_iff.mp hbyte
      simp only [ByteSource.next?, next?, hready, hbyte, List.head?_cons, true_and]
      exact ⟨by simpa using hbytes, by simpa using hposition, hlt⟩
  next_nil := by
    intro s done h
    obtain ⟨-, r, hready, hr⟩ | ⟨r, -, -, -, hne⟩ := ready_cases h
    · simpa only [ByteSource.next?, next?, hready, true_and] using hr
    · exact absurd rfl hne
  atEnd := by
    intro s done rest h
    obtain ⟨rfl, r, hready, hr⟩ | ⟨r, hready, hr, -, hne⟩ := ready_cases h
    · simpa only [ByteSource.atEnd, atEnd, hready, List.isEmpty_nil, Bool.not_false, true_and]
        using hr
    · simpa [ByteSource.atEnd, atEnd, hready, hne] using hr
  back := by
    rintro s done last rest ⟨hbytes, hposition, hle⟩
    refine ⟨by simpa [ByteSource.back] using hbytes, by simp [ByteSource.back, hposition], ?_⟩
    exact Nat.le_trans (Nat.sub_le _ _) hle
  rewind := by
    rintro s done rest ⟨hbytes, -, -⟩
    exact ⟨hbytes, rfl, Nat.zero_le _⟩
  position := fun h => h.2.1

theorem lineBytes_eq (line : List Char) : lineBytes line = Text.encode (line ++ ['\n']) := by
  rw [lineBytes, Text.encode, Text.encode, List.flatMap_append]
  rfl

theorem stands_ofLines (lines : List (List Char)) :
    LawfulByteSource.Stands (ofLines lines) [] (Text.encode (lines.flatMap (· ++ ['\n']))) := by
  refine ⟨?_, rfl, Nat.zero_le _⟩
  have hbytes : lines.flatMap lineBytes = lines.flatMap fun line => Text.encode (line ++ ['\n']) :=
    congrArg lines.flatMap (funext lineBytes_eq)
  rw [Text.encode, List.flatMap_assoc]
  exact hbytes

/-- A source of lines stands at the start of the text in which every line has a line feed. -/
theorem stands_ofLines_join (lines : List String) :
    LawfulByteSource.Stands (ofLines (lines.map String.toList)) []
      (Text.encode (String.join (lines.map (· ++ "\n"))).toList) := by
  have htext : (String.join (lines.map (· ++ "\n"))).toList =
      (lines.map String.toList).flatMap (· ++ ['\n']) := by
    rw [String.toList_join, List.flatMap_map, List.flatMap_map]
    exact congrArg (List.flatMap · lines) (funext fun _ => String.toList_append)
  rw [htext]
  exact stands_ofLines _

end LineSource

end LayoutLex
