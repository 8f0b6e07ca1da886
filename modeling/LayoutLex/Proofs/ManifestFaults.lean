import LayoutLex.Proofs.Excerpt
import LayoutLex.Proofs.Manifest

/-!
# The line that makes a manifest faulty

A manifest is faulty at the first of its lines that is no entry and says something. Its lines end
with line feeds only, and blanks at their ends do not count, so a carriage return before a line feed
belongs to its line. A fault is shown by the line of its offset, and there every carriage return
ends a line as well.

Results:
* `addLines_eq_error_iff`: lines are refused at the first of them that is not accepted.
* `number_of_locate`: the number of a line when only line feeds end lines, and when carriage returns
  do so too.
* `ofManifest_fault_number`: the number by which the faulty line of a manifest is shown.
-/

namespace LayoutLex.Catalogue

open Text Fault

/-- The line is an entry, or it says nothing. -/
def Accepted (line : List Char) : Prop :=
  isComment (trim line) = true ∨ (Entry.ofLine? (trim line)).isSome = true

instance (line : List Char) : Decidable (Accepted line) :=
  inferInstanceAs (Decidable (_ ∨ _))

/-- A line that is not accepted is not empty. -/
theorem ne_nil_of_not_accepted {line : List Char} (h : ¬ Accepted line) : line ≠ [] := by
  rintro rfl
  exact h (Or.inl rfl)

/-! ## The first line that is refused -/

/-- An accepted line leaves the fault to the lines after it. -/
theorem addLines_cons_of_accepted {line : List Char} (h : Accepted line) (file : String)
    (offset : Nat) (c : Catalogue) (lines : List (List Char)) :
    ∃ d, addLines file offset c (line :: lines) =
      addLines file (offset + byteLength line) d lines := by
  rw [addLines]
  split
  · exact ⟨c, rfl⟩
  · next hcomment =>
    obtain ⟨entry, hentry⟩ := Option.isSome_iff_exists.mp (h.resolve_left hcomment)
    rw [hentry]
    exact ⟨c.add entry, rfl⟩

theorem addLines_cons_of_not_accepted {line : List Char} (h : ¬ Accepted line) (file : String)
    (offset : Nat) (c : Catalogue) (lines : List (List Char)) :
    addLines file offset c (line :: lines) =
      .error ⟨.badEntry (String.ofList (trim line)), ⟨offset, file⟩⟩ := by
  obtain ⟨hcomment, hentry⟩ := not_or.mp h
  rw [Option.not_isSome_iff_eq_none] at hentry
  simp only [addLines, if_neg hcomment, hentry]

/-- **Lines are refused at the first of them that is not accepted**, and the fault stands where that
line starts. -/
theorem addLines_eq_error_iff {file : String} {offset : Nat} {c : Catalogue}
    {lines : List (List Char)} {fault : Fault} :
    addLines file offset c lines = .error fault ↔
      ∃ earlier line later, lines = earlier ++ line :: later ∧ (∀ l ∈ earlier, Accepted l) ∧
        ¬ Accepted line ∧ fault = ⟨.badEntry (String.ofList (trim line)),
          ⟨offset + byteLength earlier.flatten, file⟩⟩ := by
  induction lines generalizing offset c with
  | nil => simp [addLines]
  | cons first lines ih =>
    by_cases hfirst : Accepted first
    · obtain ⟨d, hd⟩ := addLines_cons_of_accepted hfirst file offset c lines
      rw [hd, ih]
      constructor
      · rintro ⟨earlier, line, later, rfl, hearlier, hline, rfl⟩
        refine ⟨first :: earlier, line, later, rfl,
          List.forall_mem_cons.mpr ⟨hfirst, hearlier⟩, hline, ?_⟩
        rw [List.flatten_cons, byteLength_append, Nat.add_assoc]
      · rintro ⟨earlier, line, later, hlines, hearlier, hline, rfl⟩
        cases earlier with
        | nil =>
          cases hlines
          exact absurd hfirst hline
        | cons _ earlier =>
          cases hlines
          refine ⟨earlier, line, later, rfl, (List.forall_mem_cons.mp hearlier).2, hline, ?_⟩
          rw [List.flatten_cons, byteLength_append, Nat.add_assoc]
    · rw [addLines_cons_of_not_accepted hfirst, Except.error.injEq]
      constructor
      · rintro rfl
        exact ⟨[], first, lines, rfl, by simp, hfirst, rfl⟩
      · rintro ⟨earlier, line, later, hlines, hearlier, hline, rfl⟩
        cases earlier with
        | nil =>
          cases hlines
          rfl
        | cons _ earlier =>
          cases hlines
          exact absurd (hearlier _ List.mem_cons_self) hfirst

/-! ## Two ways to number lines -/

theorem countP_isBreak (cs : List Char) :
    cs.countP isBreak = cs.countP (· == '\n') + cs.count '\r' := by
  induction cs with
  | nil => rfl
  | cons c cs ih =>
    rw [List.countP_cons, List.countP_cons, List.count_cons, ih]
    by_cases hreturn : c = '\r'
    · subst hreturn
      simp [isBreak]
      omega
    · have hbreak : isBreak c = (c == '\n') := by simp [isBreak, hreturn]
      simp [hbreak, hreturn]
      omega

/-- **A line that ends with a line feed is numbered higher by the carriage returns before it** when
every one of these ends a line too. -/
theorem number_of_locate {earlier later : List (List Char)} {line : List Char} (hne : line ≠ [])
    (h : Lines (· == '\n') (earlier ++ line :: later)) :
    ∃ located,
      locate (earlier ++ line :: later).flatten (byteLength earlier.flatten) = some located ∧
        located.number = earlier.length + 1 + earlier.flatten.count '\r' := by
  obtain ⟨c, cs, rfl⟩ := List.exists_cons_of_ne_nil hne
  have htext : (earlier ++ (c :: cs) :: later).flatten =
      earlier.flatten ++ c :: (cs ++ later.flatten) := by
    simp
  obtain ⟨before, front, back, after, hline⟩ :=
    exists_inLine isBreak earlier.flatten c (cs ++ later.flatten)
  refine ⟨_, htext ▸ hline.locate, ?_⟩
  have hfeeds : earlier.flatten.countP (· == '\n') = earlier.length :=
    countP_flatten_of_ended h.append_cons.1
  show before.length + 1 = _
  rw [← hline.countP_eq, countP_isBreak, hfeeds]
  omega

/-- Lines that all end with a carriage return and a line feed have one carriage return each. -/
theorem count_return_of_crlf {lines : List (List Char)}
    (h : ∀ l ∈ lines, ∃ body, '\r' ∉ body ∧ l = body ++ ['\r', '\n']) :
    lines.flatten.count '\r' = lines.length := by
  induction lines with
  | nil => rfl
  | cons line lines ih =>
    obtain ⟨⟨body, hbody, rfl⟩, hlines⟩ := List.forall_mem_cons.mp h
    rw [List.flatten_cons, List.count_append, List.count_append, List.count_eq_zero.mpr hbody,
      ih hlines, List.length_cons, Nat.zero_add, Nat.add_comm]
    rfl

/-- **The number by which the faulty line of a manifest is shown.** The fault of a manifest stands
at the start of its first line that is not accepted, and is shown with the number of that line plus
one for each carriage return before it. So the number is that of the line exactly if there are none,
and if all lines before end with a carriage return and a line feed, these count twice. -/
theorem ofManifest_fault_number {manifest file : String} {fault : Fault}
    (h : ofManifest manifest file = .error fault) :
    ∃ earlier line later located, (earlier ++ line :: later).flatten = manifest.toList ∧
      Lines (· == '\n') (earlier ++ line :: later) ∧ (∀ l ∈ earlier, Accepted l) ∧
      ¬ Accepted line ∧ fault.cause = .badEntry (String.ofList (trim line)) ∧
      locate manifest.toList fault.position.offset = some located ∧
      fault.render manifest = fault.heading ++ exhibit located.number (trim located.line)
        (located.column - (indentation located.line).length) ∧
      located.number = earlier.length + 1 + earlier.flatten.count '\r' ∧
      (located.number = earlier.length + 1 ↔ '\r' ∉ earlier.flatten) ∧
      ((∀ l ∈ earlier, ∃ body, '\r' ∉ body ∧ l = body ++ ['\r', '\n']) →
        located.number = 2 * earlier.length + 1) := by
  obtain ⟨earlier, line, later, hcut, hearlier, hline, rfl⟩ := addLines_eq_error_iff.mp h
  obtain ⟨htext, hlines⟩ := terminated_eq_iff.mp hcut
  obtain ⟨located, hlocate, hnumber⟩ := number_of_locate (ne_nil_of_not_accepted hline) hlines
  rw [htext, ← Nat.zero_add (byteLength _)] at hlocate
  refine ⟨earlier, line, later, located, htext, hlines, hearlier, hline, rfl, hlocate,
    render_of_locate_eq_some hlocate, hnumber, ?_, fun hcrlf => ?_⟩
  · rw [hnumber, ← List.count_eq_zero]
    omega
  · rw [hnumber, count_return_of_crlf hcrlf]
    omega

theorem ofManifest_fault_number_crlf :
    let manifest := "# drawing\r\nFUNCTION SQRT\r\n MACRO X\r\n"
    let fault : Fault := ⟨.badEntry "MACRO X", ⟨26, "names"⟩⟩
    ofManifest manifest "names" = .error fault ∧
      ∃ earlier line later located, (earlier ++ line :: later).flatten = manifest.toList ∧
        ¬ Accepted line ∧ locate manifest.toList 26 = some located ∧
        located.number = earlier.length + 1 + earlier.flatten.count '\r' ∧ located.number = 5 := by
  intro manifest fault
  have hcut : terminated (· == '\n') manifest.toList =
      ["# drawing\r\n".toList, "FUNCTION SQRT\r\n".toList] ++ " MACRO X\r\n".toList :: [] := by
    decide +kernel
  have h : ofManifest manifest "names" = .error fault :=
    addLines_eq_error_iff.mpr
      ⟨_, _, _, hcut, by decide +kernel, by decide +kernel, by decide +kernel⟩
  obtain ⟨earlier, line, later, located, htext, -, -, hline, -, hlocate, -, hnumber, -⟩ :=
    ofManifest_fault_number h
  have hfifth : (locate manifest.toList 26).map Located.number = some 5 := by decide +kernel
  rw [hlocate] at hfifth
  exact ⟨h, earlier, line, later, located, htext, hline, hlocate, hnumber, Option.some.inj hfifth⟩

/-- The second line of a manifest is shown as its third. -/
theorem not_ofManifest_fault_number :
    ¬ ∀ manifest file fault earlier line later, ofManifest manifest file = .error fault →
      terminated (· == '\n') manifest.toList = earlier ++ line :: later →
        (∀ l ∈ earlier, Accepted l) → ¬ Accepted line →
          ∃ located, locate manifest.toList fault.position.offset = some located ∧
            located.number = earlier.length + 1 := by
  intro hall
  let fault : Fault := ⟨.badEntry "MACRO X", ⟨15, "names"⟩⟩
  have hcut : terminated (· == '\n') "FUNCTION SQRT\r\nMACRO X\r\n".toList =
      ["FUNCTION SQRT\r\n".toList] ++ "MACRO X\r\n".toList :: [] := by
    decide +kernel
  have hearlier : ∀ l ∈ ["FUNCTION SQRT\r\n".toList], Accepted l := by decide +kernel
  have hline : ¬ Accepted "MACRO X\r\n".toList := by decide +kernel
  have h : ofManifest "FUNCTION SQRT\r\nMACRO X\r\n" "names" = .error fault :=
    addLines_eq_error_iff.mpr ⟨_, _, _, hcut, hearlier, hline, by decide +kernel⟩
  obtain ⟨located, hlocate, hnumber⟩ := hall _ _ _ _ _ _ h hcut hearlier hline
  have hthird : (locate "FUNCTION SQRT\r\nMACRO X\r\n".toList 15).map Located.number = some 3 := by
    decide +kernel
  rw [hlocate, Option.map_some, hnumber] at hthird
  cases hthird

end LayoutLex.Catalogue
