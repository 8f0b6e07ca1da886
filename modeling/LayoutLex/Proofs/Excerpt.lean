import LayoutLex.Fault.Excerpt
import LayoutLex.Proofs.Bytes
import LayoutLex.Proofs.Lines
import LayoutLex.Proofs.Spacing
import LayoutLex.Proofs.Unclosed
import Mathlib.Data.List.TakeWhile

/-!
# Faults shown in their source

A fault is shown by the line of its offset and a caret under it. The line is shown without the
blanks at its ends and the caret is placed by counting bytes, so what stands before the fault in its
line decides where the caret comes to stand.

* `exhibit` is what is shown after the heading: the row of the line and the row of the caret, both
  with the same margin.
* `drift` is how far to the right of the character at the offset the caret stands: a place for each
  byte that is not the first of its character, and one for each blank from the first that is no
  space or tab to where the text begins.

Results:
* `excerpt_eq`: an excerpt as rows.
* `getElem?_textRow`, `getElem?_caretRow`: the rows have one margin.
* `drift_eq_zero_iff`: when the caret stands under its character.
* `tokenize_fault_shown`: how the faults of a source are shown.
* `render_caret`: where the caret stands under a character.
-/

namespace LayoutLex

open Text

namespace Fault

/-! ## Rows -/

/-- The blank place of a line number, and the bar after it. -/
def gutter (number : Nat) : List Char :=
  List.replicate ((toString number).length + 1) ' ' ++ ['|']

/-- The row of a line: its number, a bar and what is shown of it. -/
def textRow (number : Nat) (shown : List Char) : List Char :=
  (toString number).toList ++ (" | ".toList ++ shown)

/-- The row of the caret. -/
def caretRow (number place : Nat) : List Char :=
  gutter number ++ ' ' :: (List.replicate place '-' ++ ['^'])

/-- The column in which the shown text begins. -/
def margin (number : Nat) : Nat :=
  (toString number).length + 3

/-- The rows of an excerpt: the shown text of the line and a caret under the given place in it. -/
def exhibit (number : Nat) (shown : List Char) (place : Nat) : String :=
  String.ofList (gutter number ++ '\n' :: textRow number shown ++ '\n' :: caretRow number place ++
    ['\n'])

/-- Behind the margin of its row stands the shown text. -/
theorem getElem?_textRow (number : Nat) (shown : List Char) (i : Nat) :
    (textRow number shown)[margin number + i]? = shown[i]? := by
  have hlength : ((toString number).toList ++ " | ".toList).length = margin number := by
    rw [List.length_append, String.length_toList]
    rfl
  rw [textRow, ← List.append_assoc, ← hlength, List.getElem?_append_right (Nat.le_add_right _ _),
    Nat.add_sub_cancel_left]

/-- **Behind the margin of its row the caret stands in its place**, and nowhere else. -/
theorem getElem?_caretRow {number place i : Nat} :
    (caretRow number place)[i]? = some '^' ↔ i = margin number + place := by
  have hrow : caretRow number place =
      gutter number ++ ' ' :: List.replicate place '-' ++ ['^'] := by
    simp [caretRow]
  have hlength : (gutter number ++ ' ' :: List.replicate place '-').length =
      margin number + place := by
    simp [gutter, margin]
    omega
  have hother : '^' ∉ gutter number ++ ' ' :: List.replicate place '-' := by
    simp [gutter]
  rw [hrow, List.getElem?_append, hlength]
  split
  · next hlt =>
    refine iff_of_false (fun h => hother (List.mem_of_getElem? h)) (Nat.ne_of_lt hlt)
  · next hge =>
    rw [List.getElem?_singleton]
    split
    · next heq => exact iff_of_true rfl (by omega)
    · next hne => exact iff_of_false (by simp) (by omega)

/-! ## The shown text -/

theorem isBlank_of_mem_indentation {line : List Char} {c : Char} (h : c ∈ indentation line) :
    isBlank c = true := by
  have hc := mem_takeWhile h
  rw [Bool.or_eq_true, beq_iff_eq, beq_iff_eq] at hc
  rcases hc with rfl | rfl <;> rfl

theorem trim_append_of_isBlank {run : List Char} (h : ∀ c ∈ run, isBlank c = true)
    (rest : List Char) : trim (run ++ rest) = trim rest := by
  rw [trim, trimStart, List.dropWhile_append_of_pos h, ← trimStart, trim]

/-- Taking the indentation off first does not change what is shown. -/
theorem trim_drop_indentation (line : List Char) :
    trim (line.drop (indentation line).length) = trim line := by
  have hblank : ∀ c ∈ indentation line, isBlank c = true := fun _ => isBlank_of_mem_indentation
  have hsplit : indentation line ++ line.dropWhile (fun c => c == ' ' || c == '\t') = line :=
    List.takeWhile_append_dropWhile
  generalize indentation line = indent at hblank hsplit ⊢
  rw [← hsplit, List.drop_left, trim_append_of_isBlank hblank]

/-- **An excerpt is the trimmed line with a caret in the place that bytes give.** -/
theorem excerpt_eq (located : Located) :
    excerpt located = exhibit located.number (trim located.line)
      (located.column - (indentation located.line).length) := by
  have hgutter : alignRight ' ' ((toString located.number).length + 2) "|" =
      String.ofList (gutter located.number) := by
    rw [gutter, String.ofList_append]
    rfl
  have hcaret : ∀ place, alignRight '-' (place + 1) "^" =
      String.ofList (List.replicate place '-' ++ ['^']) := by
    intro place
    rw [String.ofList_append]
    rfl
  rw [excerpt, hgutter, hcaret, trim_drop_indentation]
  have hbreak : "\n".toList = ['\n'] := by decide
  have hspace : " ".toList = [' '] := by decide
  apply String.toList_inj.mp
  simp only [exhibit, textRow, caretRow, String.toList_append, String.toList_ofList, hbreak, hspace,
    List.append_assoc, List.cons_append, List.nil_append]

/-- A fault is shown by its heading alone if its offset is in no line. -/
theorem render_of_locate_eq_none {fault : Fault} {source : String}
    (h : locate source.toList fault.position.offset = none) :
    fault.render source = fault.heading := by
  rw [render, h]

theorem render_of_locate_eq_some {fault : Fault} {source : String} {located : Located}
    (h : locate source.toList fault.position.offset = some located) :
    fault.render source = fault.heading ++ exhibit located.number (trim located.line)
      (located.column - (indentation located.line).length) := by
  rw [render, h, ← excerpt_eq]

/-! ## The place of the caret -/

variable {front back : List Char} {c : Char}

/-- What stands before a character that is no blank is indented as its line is. -/
theorem indentation_append_cons (hc : isBlank c = false) :
    indentation (front ++ c :: back) = indentation front := by
  have hstops : Stops (fun d => d == ' ' || d == '\t') (c :: back) := by
    rw [stops_cons, Bool.eq_false_iff]
    intro h
    have hmem : c ∈ indentation [c] := by simp [indentation, h]
    rw [isBlank_of_mem_indentation hmem] at hc
    cases hc
  exact takeWhile_append_of_stops_right hstops front

/-- How far to the right of its character a caret stands that has `front` before it in its line. -/
def drift (front : List Char) : Nat :=
  (byteLength front - front.length) + ((leading front).length - (indentation front).length)

/-- Spaces and tabs come first among the leading blanks. -/
theorem indentation_leading (front : List Char) :
    indentation (leading front) = indentation front := by
  have hboth : ∀ d : Char, decide ((d == ' ' || d == '\t') = true ∧ isBlank d = true) =
      (d == ' ' || d == '\t') := by
    intro d
    rw [Bool.eq_iff_iff, decide_eq_true_iff, and_iff_left_iff_imp, Bool.or_eq_true, beq_iff_eq,
      beq_iff_eq]
    rintro (rfl | rfl) <;> rfl
  rw [indentation, leading, List.takeWhile_takeWhile, funext hboth, indentation]

theorem length_indentation_le (front : List Char) :
    (indentation front).length ≤ (leading front).length := by
  rw [← indentation_leading]
  exact (List.takeWhile_prefix _).length_le

/-- **The caret stands in the place of its character and some to the right.** -/
theorem place_eq (front : List Char) :
    byteLength front - (indentation front).length = (trimStart front).length + drift front := by
  have hsplit := congrArg List.length (takeWhile_append_trimStart front)
  have hbytes := length_le_byteLength front
  have hindent := length_indentation_le front
  rw [List.length_append, ← leading] at hsplit
  rw [drift]
  omega

/-- **A caret stands under its character** exactly if all before that in the line is ASCII and the
leading blanks are spaces and tabs. -/
theorem drift_eq_zero_iff :
    drift front = 0 ↔ (∀ d ∈ front, d.toNat < 128) ∧ ∀ d ∈ leading front, d = ' ' ∨ d = '\t' := by
  have hbytes := length_le_byteLength front
  have hindent := length_indentation_le front
  have hascii : byteLength front - front.length = 0 ↔ ∀ d ∈ front, d.toNat < 128 := by
    rw [← byteLength_eq_length_iff]
    omega
  have hleading : (leading front).length - (indentation front).length = 0 ↔
      ∀ d ∈ leading front, d = ' ' ∨ d = '\t' := by
    have hinit : indentation (leading front) <+: leading front := List.takeWhile_prefix _
    have hall : indentation (leading front) = leading front ↔
        ∀ d ∈ leading front, d = ' ' ∨ d = '\t' := by
      rw [indentation, List.takeWhile_eq_self_iff]
      simp only [Bool.or_eq_true, beq_iff_eq]
    rw [← hall, ← indentation_leading, Nat.sub_eq_zero_iff_le]
    exact ⟨hinit.eq_of_length_le, fun heq => (congrArg List.length heq).ge⟩
  rw [drift, Nat.add_eq_zero_iff, hascii, hleading]

/-- **Where the caret stands.** A fault at a character that is no blank is shown by the character's
line without the blanks at its ends and a row with one caret. The caret stands as far to the right
of the character as `drift` says, so it stands under the character exactly if all before that in its
line is ASCII and the line begins with no blanks but spaces and tabs. -/
theorem render_caret {source : String} {fault : Fault} {before after : List Char}
    (hsource : source.toList = before ++ c :: after) (hc : isBlank c = false)
    (hoffset : fault.position.offset = byteLength before) :
    ∃ earlier front back later, InLine isBreak before c after earlier front back later ∧
      let number := earlier.length + 1
      let shown := trim (front ++ c :: back)
      let place := (trimStart front).length
      let caret := caretRow number (place + drift front)
      fault.render source = fault.heading ++ String.ofList
        (gutter number ++ '\n' :: textRow number shown ++ '\n' :: caret ++ ['\n']) ∧
      shown = trimStart front ++ c :: trimEnd back ∧
      (textRow number shown)[margin number + place]? = some c ∧
      (∀ i, caret[i]? = some '^' ↔ i = margin number + place + drift front) ∧
      (caret[margin number + place]? = some '^' ↔
        (∀ d ∈ front, d.toNat < 128) ∧ ∀ d ∈ leading front, d = ' ' ∨ d = '\t') := by
  obtain ⟨earlier, front, back, later, hline⟩ := exists_inLine isBreak before c after
  refine ⟨earlier, front, back, later, hline, ?_⟩
  intro number shown place caret
  have hshown : shown = trimStart front ++ c :: trimEnd back := trim_append_cons hc
  have hcaret : ∀ i, caret[i]? = some '^' ↔ i = margin number + place + drift front := by
    intro i
    rw [getElem?_caretRow, Nat.add_assoc]
  refine ⟨?_, hshown, ?_, hcaret, ?_⟩
  · have hlocate : locate source.toList fault.position.offset =
        some ⟨number, front ++ c :: back, byteLength front⟩ := by
      rw [hsource, hoffset]
      exact hline.locate
    rw [render_of_locate_eq_some hlocate, indentation_append_cons hc, place_eq]
    rfl
  · rw [getElem?_textRow, hshown, List.getElem?_append_right (Nat.le_refl _), Nat.sub_self]
    rfl
  · rw [hcaret, ← drift_eq_zero_iff]
    omega

theorem render_caret_accented :
    let source := "\té \"x"
    let before := "\té \"".toList
    let shown := "é \"x".toList
    let fault : Fault := ⟨.unclosed '\x22' "\"x", ⟨5, "shell"⟩⟩
    source.toList = before ++ ['x'] ∧ isBlank 'x' = false ∧
      fault.position.offset = byteLength before ∧
      fault.render source = fault.heading ++ exhibit 1 shown 4 ∧
      (textRow 1 shown)[margin 1 + 3]? = some 'x' ∧ (caretRow 1 4)[margin 1 + 3]? ≠ some '^' := by
  intro source before shown fault
  have hsource : source.toList = before ++ ['x'] := by decide +kernel
  have hoffset : fault.position.offset = byteLength before := by decide +kernel
  have hc : isBlank 'x' = false := by decide
  obtain ⟨earlier, front, back, later, hline, hrender, -, hplace, -, hunder⟩ :=
    render_caret hsource hc hoffset
  -- There is no line break before the character, so all of that is in its line.
  obtain ⟨rfl, hfront⟩ := hline.first (by decide +kernel)
  obtain ⟨hback, -⟩ := List.append_eq_nil_iff.mp hline.after_eq.symm
  have hshown : trim (before ++ ['x']) = shown := by decide +kernel
  have hindex : (trimStart before).length = 3 := by decide +kernel
  have hdrift : drift before = 1 := by decide +kernel
  rw [hfront, hback, hshown, hindex, hdrift] at hrender
  rw [hfront, hback, hshown, hindex] at hplace
  rw [hfront, hindex, hdrift] at hunder
  refine ⟨hsource, hc, hoffset, hrender, hplace, fun h => ?_⟩
  exact absurd ((hunder.mp h).1 'é' (by decide +kernel)) (by decide)

/-- An accented letter in the line moves the caret away from its character. -/
theorem not_render_caret :
    ¬ ∀ (source : String) (fault : Fault) (before after : List Char) (c : Char),
      source.toList = before ++ c :: after → isBlank c = false →
        fault.position.offset = byteLength before →
          ∃ earlier front back later, InLine isBreak before c after earlier front back later ∧
            fault.render source = fault.heading ++ exhibit (earlier.length + 1)
              (trim (front ++ c :: back)) (trimStart front).length := by
  intro hall
  let before : List Char := ['é', '\x22']
  let fault : Fault := ⟨.unclosed '\x22' "\"x", ⟨3, "shell"⟩⟩
  have hsource : "é\"x".toList = before ++ ['x'] := by decide +kernel
  obtain ⟨earlier, front, back, later, hline, hrender⟩ :=
    hall "é\"x" fault before [] 'x' hsource (by decide) (by decide)
  obtain ⟨rfl, hfront⟩ := hline.first (by decide +kernel)
  obtain ⟨hback, -⟩ := List.append_eq_nil_iff.mp hline.after_eq.symm
  rw [hfront, hback] at hrender
  revert hrender
  decide +kernel

end Fault

namespace Lexer

variable {lexer : Lexer} {source : String} {file? : Option String} {fault : Fault}

/-- A fault of a source is a delimiter that is still open at the end, and stands just after it. -/
theorem exists_unclosed_of_error (h : lexer.tokenize source file? = .error fault) :
    ∃ before d rest, source.toList = before ++ d :: rest ∧ (d = '\x22' ∨ d = '\x60') ∧
      fault = ⟨.unclosed d (String.ofList (d :: rest)),
        ⟨byteLength before + 1, file?.getD defaultFile⟩⟩ := by
  rw [tokenize, lex_eq] at h
  split at h
  · next found hfound =>
    cases h
    obtain ⟨before, d, rest, hsource, hunclosed, rfl⟩ :=
      Scan.fault?_segments_eq_some_iff.mp hfound
    obtain ⟨-, hquote, -⟩ := Scan.unclosed?_segments_iff.mp hunclosed
    rw [Nat.zero_add]
    exact ⟨before, d, rest, hsource, hquote, rfl⟩
  · cases h

theorem tokenize_eq_error_of_fault?
    (h : (Scan.segments source.toList).fault? (file?.getD defaultFile) 0 = some fault) :
    lexer.tokenize source file? = .error fault := by
  rw [tokenize, lex_eq, h]

/-- **How the faults of a source are shown.** The byte before the offset of a fault is the delimiter
that is not closed. If anything comes after the delimiter, the offset is in the delimiter's line and
the fault is shown with this line and a caret; otherwise the offset is in no line and the fault is
shown by its heading alone. -/
theorem tokenize_fault_shown (h : lexer.tokenize source file? = .error fault) :
    ∃ before d rest earlier front back later, source.toList = before ++ d :: rest ∧
      InLine isBreak before d rest earlier front back later ∧
      fault.cause = .unclosed d (String.ofList (d :: rest)) ∧
      fault.position.offset = byteLength before + 1 ∧
      bytesBetween source.toList (fault.position.offset - 1) fault.position.offset = [d.toUInt8] ∧
      (rest ≠ [] →
        locate source.toList fault.position.offset =
            some ⟨earlier.length + 1, front ++ d :: back, byteLength front + 1⟩ ∧
          fault.render source = fault.heading ++
            Fault.exhibit (earlier.length + 1) (trim (front ++ d :: back))
              (byteLength front + 1 - (Fault.indentation front).length)) ∧
      (rest = [] → locate source.toList fault.position.offset = none ∧
        fault.render source = fault.heading) := by
  obtain ⟨before, d, rest, hsource, hquote, rfl⟩ := exists_unclosed_of_error h
  obtain ⟨earlier, front, back, later, hline⟩ := exists_inLine isBreak before d rest
  have hsize : d.utf8Size = 1 := by rcases hquote with rfl | rfl <;> rfl
  have hblank : isBlank d = false := by rcases hquote with rfl | rfl <;> rfl
  have hbreak : isBreak d = false := by rcases hquote with rfl | rfl <;> rfl
  have hbytes : bytesBetween source.toList (byteLength before + 1 - 1) (byteLength before + 1) =
      [d.toUInt8] := by
    have hone : encode [d] = [d.toUInt8] := by rcases hquote with rfl | rfl <;> rfl
    have hbetween := bytesBetween_append before [d] rest
    rw [List.append_assoc, List.singleton_append, ← hsource, hone, byteLength_cons,
      hsize] at hbetween
    exact hbetween
  refine ⟨before, d, rest, earlier, front, back, later, hsource, hline, rfl, rfl, hbytes,
    fun hrest => ?_, fun hrest => ?_⟩
  · have hlocate := hline.locate_next hbreak hrest
    rw [← hsource, hsize] at hlocate
    refine ⟨hlocate, ?_⟩
    rw [Fault.render_of_locate_eq_some hlocate, Fault.indentation_append_cons hblank]
  · have hnone : locate source.toList (byteLength before + 1) = none := by
      rw [locate_eq_none_iff, hsource, hrest, byteLength_append, byteLength_cons, hsize]
      exact Nat.le_refl _
    exact ⟨hnone, Fault.render_of_locate_eq_none hnone⟩

theorem tokenize_fault_shown_break :
    let source := "A:=1\r\né:=\"\n"
    let fault : Fault := ⟨.unclosed '\x22' "\"\n", ⟨11, "shell"⟩⟩
    tokenize ⟨.empty, .keep⟩ source none = .error fault ∧
      ∃ number line column place, locate source.toList 11 = some ⟨number, line, column⟩ ∧
        fault.render source = fault.heading ++ Fault.exhibit number (trim line) place := by
  intro source fault
  have h : tokenize ⟨.empty, .keep⟩ source none = .error fault :=
    tokenize_eq_error_of_fault? (by decide +kernel)
  obtain ⟨before, d, rest, earlier, front, back, later, -, -, -, -, -, hshown, hnothing⟩ :=
    tokenize_fault_shown h
  have hrest : rest ≠ [] := by
    intro hnil
    have hnone := (hnothing hnil).1
    revert hnone
    decide +kernel
  obtain ⟨hlocate, hrender⟩ := hshown hrest
  exact ⟨h, _, _, _, _, hlocate, hrender⟩

/-- A quote that a source ends with is a fault in no line. -/
theorem not_tokenize_fault_shown :
    ¬ ∀ (lexer : Lexer) source file? fault, lexer.tokenize source file? = .error fault →
      ∃ located, locate source.toList fault.position.offset = some located := by
  intro hall
  let fault : Fault := ⟨.unclosed '\x22' "\"", ⟨4, "shell"⟩⟩
  have h : tokenize ⟨.empty, .keep⟩ "A:=\"" none = .error fault :=
    tokenize_eq_error_of_fault? (by decide +kernel)
  obtain ⟨located, hlocated⟩ := hall _ _ _ _ h
  have hnone : locate "A:=\"".toList 4 = none := by decide +kernel
  rw [hnone] at hlocated
  cases hlocated

end Lexer

end LayoutLex
