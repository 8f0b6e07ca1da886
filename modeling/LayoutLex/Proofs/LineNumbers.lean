import LayoutLex.Proofs.Excerpt
import LayoutLex.Proofs.FileReport
import LayoutLex.Proofs.MaximalRuns

/-!
# Line numbers in the report on a file

A run over a file lexes each line by itself, and it shows a fault with nothing but that line for the
source. So the number in front of a faulty line counts the lines of that line, and there is only
one, whatever stands before it in the file.

* `ShowsNumber` says which number the report shows for a faulty line.

Results:
* `exhibit_number_inj`: an excerpt has one number in it.
* `MaximalRun.exists_locate`: the number of a line in its text.
* `showsNumber_iff`: the number that the report shows.
* `stdout_run`: the report of a run is put together from what is shown of the lines.
* `run_inspect_fault_number`: the number shown and the number in the file.
-/

namespace LayoutLex

open Text

/-! ## The number in an excerpt -/

namespace Fault

theorem takeWhile_gutter (number : Nat) (rows : List Char) :
    (gutter number ++ '\n' :: rows).takeWhile (· != '\n') = gutter number := by
  have hrow : ∀ c ∈ gutter number, (c != '\n') = true := by
    intro c hc
    rcases List.mem_append.mp hc with hc | hc
    · rw [(List.mem_replicate.mp hc).2]
      decide
    · rw [List.mem_singleton.mp hc]
      decide
  exact takeWhile_append_of_stops hrow (stops_cons.mpr (by decide))

/-- **An excerpt has one number in it.** -/
theorem exhibit_number_inj {number other : Nat} {shown shown' : List Char} {place place' : Nat}
    (h : exhibit number shown place = exhibit other shown' place') : number = other := by
  have hrows := String.ofList_injective h
  simp only [List.append_assoc, List.cons_append] at hrows
  -- The first row is as wide as the number is, so the number of the second row can be cut off.
  have hgutter : gutter number = gutter other := by
    rw [← takeWhile_gutter number, hrows, takeWhile_gutter]
  have hlength : (toString number).toList.length = (toString other).toList.length := by
    have hwidth := congrArg List.length hgutter
    simp only [gutter, List.length_append, List.length_replicate] at hwidth
    rw [String.length_toList, String.length_toList]
    omega
  rw [hgutter] at hrows
  have hsecond := (List.cons.inj (List.append_cancel_left hrows)).2
  simp only [textRow, List.append_assoc] at hsecond
  have hdigits : Nat.toDigits 10 number = Nat.toDigits 10 other := by
    simpa using List.append_inj_left hsecond hlength
  have hread : ∀ n, Nat.ofDigitChars 10 (Nat.toDigits 10 n) 0 = n := fun n =>
    Nat.ofDigitChars_toDigits (by decide) (by decide)
  rw [← hread number, hdigits, hread]

end Fault

/-! ## The number of a line -/

namespace Text

variable {before line after : List Char}

/-- A line is the first one of itself. -/
theorem locate_of_not_isBreak (h : ∀ c ∈ line, isBreak c = false) {offset : Nat}
    (hoffset : offset < byteLength line) : locate line offset = some ⟨1, line, offset⟩ := by
  have hne : line ≠ [] := by
    rintro rfl
    exact Nat.not_lt_zero offset hoffset
  exact locate_eq_some_iff.mpr
    ⟨[], [], by simp, .last hne h, rfl, (Nat.zero_add offset).symm, hoffset⟩

/-- **The number of a line in its text** is one more than the line breaks before it. -/
theorem MaximalRun.exists_locate (h : MaximalRun isBreak before line after)
    {front back : List Char} {c : Char} (hline : line = front ++ c :: back) :
    ∃ located, locate (before ++ line ++ after) (byteLength (before ++ front)) = some located ∧
      located.number = before.countP isBreak + 1 := by
  obtain ⟨earlier, front', back', later, hin⟩ :=
    exists_inLine isBreak (before ++ front) c (back ++ after)
  have hfront : front.countP isBreak = 0 := by
    refine List.countP_eq_zero.mpr fun d hd => ?_
    rw [h.outside d (hline ▸ List.mem_append_left _ hd)]
    exact Bool.false_ne_true
  have hnumber := hin.countP_eq
  rw [List.countP_append, hfront, Nat.add_zero] at hnumber
  have hlocate := hin.locate
  rw [List.append_assoc, ← List.cons_append, ← List.append_assoc front, ← hline,
    ← List.append_assoc] at hlocate
  exact ⟨_, hlocate, by rw [hnumber]⟩

/-- Only the first line of a text has no line break before it. -/
theorem MaximalRun.countP_eq_zero_iff (h : MaximalRun isBreak before line after) :
    before.countP isBreak = 0 ↔ before = [] := by
  constructor
  · intro hnone
    rw [List.countP_eq_zero] at hnone
    rcases List.eq_nil_or_concat before with rfl | ⟨init, c, rfl⟩
    · rfl
    · exact absurd (h.starts c (by simp)) (hnone c (by simp))
  · rintro rfl
    rfl

end Text

/-! ## The report -/

namespace Program

variable {lexer : Lexer} {file : String} {line : List Char} {fault : Fault}

/-- The report shows a faulty line with the number in front. -/
def ShowsNumber (lexer : Lexer) (file : String) (line : List Char) (number : Nat) : Prop :=
  ∃ fault shown place, lexer.tokenize (String.ofList line) (some file) = .error fault ∧
    block lexer file line = "ORIG : " ++ String.ofList line ++ "\n" ++
      (fault.heading ++ Fault.exhibit number shown place)

/-- A fault that has been found in a line by itself is shown as one in the first line, if its offset
is in the line at all. -/
theorem render_of_not_isBreak (hline : ∀ c ∈ line, isBreak c = false) (fault : Fault) :
    fault.render (String.ofList line) =
      if fault.position.offset < byteLength line then
        fault.heading ++ Fault.exhibit 1 (trim line)
          (fault.position.offset - (Fault.indentation line).length)
      else fault.heading := by
  split
  · next hlt =>
    have hlocate : locate (String.ofList line).toList fault.position.offset =
        some ⟨1, line, fault.position.offset⟩ := by
      rw [String.toList_ofList]
      exact locate_of_not_isBreak hline hlt
    rw [Fault.render_of_locate_eq_some hlocate]
  · next hge =>
    refine Fault.render_of_locate_eq_none (locate_eq_none_iff.mpr ?_)
    rw [String.toList_ofList]
    exact Nat.le_of_not_lt hge

theorem block_of_error (h : lexer.tokenize (String.ofList line) (some file) = .error fault) :
    block lexer file line =
      "ORIG : " ++ String.ofList line ++ "\n" ++ fault.render (String.ofList line) := by
  rw [block, h]

/-- **The number that the report shows** for a faulty line is one. It shows one exactly if the line
goes on after the delimiter that is never closed. -/
theorem showsNumber_iff (hline : ∀ c ∈ line, isBreak c = false)
    (h : lexer.tokenize (String.ofList line) (some file) = .error fault) {number : Nat} :
    ShowsNumber lexer file line number ↔ number = 1 ∧ fault.position.offset < byteLength line := by
  have hrender := render_of_not_isBreak hline fault
  constructor
  · rintro ⟨found, shown, place, hfound, hblock⟩
    rw [h] at hfound
    cases hfound
    rw [block_of_error h, String.append_right_inj] at hblock
    rw [hblock] at hrender
    split at hrender
    · next hlt =>
      exact ⟨Fault.exhibit_number_inj ((String.append_right_inj _).mp hrender), hlt⟩
    · have hlength := congrArg String.length hrender
      simp only [Fault.exhibit, String.length_append, String.length_ofList, List.length_append,
        List.length_cons] at hlength
      omega
  · rintro ⟨rfl, hlt⟩
    rw [if_pos hlt] at hrender
    exact ⟨fault, _, _, h, by rw [block_of_error h, hrender]⟩

/-- The report of a run is put together from what is shown of the lines. -/
theorem stdout_run {catalogue? : Option Document} {c : Catalogue}
    (hload : loadCatalogue catalogue? = .ok c) (path : String) (source : List Char)
    (noSpaces : Bool) (setting? : Option String) :
    let document : Document := ⟨path, .ok (encode source)⟩
    let request : Request := ⟨.inspect document, catalogue?, noSpaces, setting?⟩
    let lexer : Lexer := ⟨c, request.spacing⟩
    (run request).stdout =
      String.join ((sourceLines source).map (block lexer document.name)) ++
        Report.symbolsLine
          (lexer.unresolvedSymbols (String.ofList source) (some document.name)) := by
  intro document request lexer
  have hrun : run request = inspectFile lexer document := by
    unfold run
    rw [hload]
  rw [hrun, inspectFile_of_text (Document.text_encode path source) (Report.ofSource_eq ..)]
  split
  · rfl
  · rfl

/-- What is shown of a line stands between what is shown of the lines before and after it. -/
theorem join_map_sourceLines {before after : List Char} (h : MaximalRun isBreak before line after)
    (f : List Char → String) :
    String.join ((sourceLines (before ++ line ++ after)).map f) =
      String.join ((sourceLines before).map f) ++ f line ++
        String.join ((sourceLines after).map f) := by
  have hlines : sourceLines (before ++ line ++ after) =
      sourceLines before ++ line :: sourceLines after := h.runs_eq
  rw [hlines, List.map_append, List.map_cons, String.join_append, String.join_cons,
    String.append_assoc]

/-- **The number shown and the number in the file.** Take a line of a file that cannot be lexed. In
the file it has the number that its characters are found with, one more than the line breaks before
it. In the report it stands between what is shown of the lines before it and after it, and if a
number is shown for it, that is one. So it is the number in the file for the first line only. -/
theorem run_inspect_fault_number {catalogue? : Option Document} {c : Catalogue}
    (hload : loadCatalogue catalogue? = .ok c) (path : String) (source : List Char)
    (noSpaces : Bool) (setting? : Option String) :
    let document : Document := ⟨path, .ok (encode source)⟩
    let request : Request := ⟨.inspect document, catalogue?, noSpaces, setting?⟩
    let lexer : Lexer := ⟨c, request.spacing⟩
    let shown := fun text => String.join ((sourceLines text).map (block lexer document.name))
    ∀ before line after fault, source = before ++ line ++ after →
      MaximalRun isBreak before line after →
      lexer.tokenize (String.ofList line) (some document.name) = .error fault →
      let number := before.countP isBreak + 1
      (∀ front c back, line = front ++ c :: back →
        ∃ located, locate source (byteLength (before ++ front)) = some located ∧
          located.number = number) ∧
      (run request).stdout =
        shown before ++ block lexer document.name line ++ shown after ++ Report.symbolsLine
          (lexer.unresolvedSymbols (String.ofList source) (some document.name)) ∧
      (∀ k, ShowsNumber lexer document.name line k ↔
        k = 1 ∧ fault.position.offset < byteLength line) ∧
      ∀ k, ShowsNumber lexer document.name line k → (k = number ↔ before = []) := by
  intro document request lexer shown before line after fault hsource hrun hfault number
  have hshows : ∀ k, ShowsNumber lexer document.name line k ↔
      k = 1 ∧ fault.position.offset < byteLength line :=
    fun _ => showsNumber_iff hrun.outside hfault
  refine ⟨fun front c back hline => ?_, ?_, hshows, fun k hk => ?_⟩
  · rw [hsource]
    exact hrun.exists_locate hline
  · have hreport := join_map_sourceLines hrun (block lexer document.name)
    rw [← hsource] at hreport
    exact (stdout_run hload path source noSpaces setting?).trans (congrArg (· ++ _) hreport)
  · rw [((hshows k).mp hk).1, ← hrun.countP_eq_zero_iff]
    omega

theorem run_inspect_fault_number_second :
    let source := "A\nM:=\"x\n".toList
    let document : Document := ⟨"lib/layout.gpl", .ok (encode source)⟩
    let fault : Fault := ⟨.unclosed '\x22' "\"x", ⟨4, document.name⟩⟩
    let line := "M:=\"x".toList
    loadCatalogue none = .ok .empty ∧ MaximalRun isBreak "A\n".toList line "\n".toList ∧
      Lexer.tokenize ⟨.empty, .keep⟩ (String.ofList line) (some document.name) = .error fault ∧
      (∃ located, locate source 2 = some located ∧ located.number = 2) ∧
      ∀ k, ShowsNumber ⟨.empty, .keep⟩ document.name line k ↔ k = 1 := by
  intro source document fault line
  have hrun : MaximalRun isBreak "A\n".toList line "\n".toList := by decide
  have hfault : Lexer.tokenize ⟨.empty, .keep⟩ (String.ofList line) (some document.name) =
      .error fault := Lexer.tokenize_eq_error_of_fault? (by decide +kernel)
  have hload : loadCatalogue none = .ok .empty := rfl
  obtain ⟨hnumber, -, hshows, -⟩ := run_inspect_fault_number hload "lib/layout.gpl" source false
    none "A\n".toList line "\n".toList fault (by decide) hrun hfault
  exact ⟨hload, hrun, hfault, hnumber [] 'M' ":=\"x".toList (by decide), fun k =>
    (hshows k).trans (and_iff_left (by decide))⟩

/-- The second line of a file is shown as the first. -/
theorem not_run_inspect_fault_number :
    ¬ ∀ (path : String) (source before line after : List Char) (fault : Fault),
      source = before ++ line ++ after → MaximalRun isBreak before line after →
      let document : Document := ⟨path, .ok (encode source)⟩
      let lexer : Lexer := ⟨.empty, .keep⟩
      lexer.tokenize (String.ofList line) (some document.name) = .error fault →
      ∀ k text place rest,
        (run ⟨.inspect document, none, false, none⟩).stdout =
          String.join ((sourceLines before).map (block lexer document.name)) ++
            ("ORIG : " ++ String.ofList line ++ "\n" ++
              (fault.heading ++ Fault.exhibit k text place)) ++ rest →
        k = before.countP isBreak + 1 := by
  intro hall
  let line := "M:=\"x".toList
  let fault : Fault := ⟨.unclosed '\x22' "\"x", ⟨4, "layout.gpl"⟩⟩
  have hrun : MaximalRun isBreak "A\n".toList line "\n".toList := by decide
  have hfault : Lexer.tokenize ⟨.empty, .keep⟩ (String.ofList line) (some "layout.gpl") =
      .error fault := Lexer.tokenize_eq_error_of_fault? (by decide +kernel)
  have hnumber : 1 = "A\n".toList.countP isBreak + 1 :=
    hall "layout.gpl" "A\nM:=\"x\n".toList "A\n".toList line "\n".toList fault (by decide) hrun
      hfault 1 line 4 "UNRESOLVED: A\n" (by decide +kernel)
  revert hnumber
  decide

end Program

end LayoutLex
