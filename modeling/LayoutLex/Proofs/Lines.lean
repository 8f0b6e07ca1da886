import LayoutLex.Text.Locate

/-!
# The lines of a text and places in them

A text is cut into lines in one way only: every line but the last ends with its only line end, and
the last is not empty and may lack its end. `Lines` says so of a list of texts, without the cut;
`InLine` says of a character which line it is in. An offset is found in the line that holds the byte
there.

Results:
* `terminated_eq_iff`: the lines of a text are those that make it up.
* `locate_eq_some_iff`, `locate_eq_none_iff`: the line, its number and the place in it that an
  offset has, and the offsets that have none.
* `locate_concatenation`: finding an offset in lines undoes putting them together.
* `exists_inLine`: every character is in a line.
* `InLine.locate`, `InLine.locate_next`, `InLine.countP_eq`: the offsets of a character and after
  it, and the number of its line.
-/

namespace LayoutLex.Text

variable {α : Type} {ends : α → Bool} {cs line front back : List α} {c : α}
  {lines earlier later : List (List α)}

/-! ## Lines -/

/-- A line with its end, which is its last character and no other. -/
inductive Ended (ends : α → Bool) : List α → Prop
  | intro {body : List α} {last : α} (hbody : ∀ c ∈ body, ends c = false)
      (hlast : ends last = true) : Ended ends (body ++ [last])

/-- Lines in order. Only the last may lack its end, and then there is something in it. -/
inductive Lines (ends : α → Bool) : List (List α) → Prop
  | nil : Lines ends []
  | last {line : List α} (hne : line ≠ []) (hline : ∀ c ∈ line, ends c = false) : Lines ends [line]
  | cons {line : List α} {lines : List (List α)} (hline : Ended ends line)
      (hlines : Lines ends lines) : Lines ends (line :: lines)

/-- What stands before a line end is a line with its end. -/
theorem terminated_append (h : ∀ c ∈ cs, ends c = false) {d : α} (hd : ends d = true)
    (rest : List α) : terminated ends (cs ++ d :: rest) = (cs ++ [d]) :: terminated ends rest := by
  induction cs with
  | nil => rw [List.nil_append, terminated, if_pos hd, List.nil_append]
  | cons c cs ih =>
    obtain ⟨hc, hcs⟩ := List.forall_mem_cons.mp h
    rw [List.cons_append, terminated, hc, ih hcs]
    rfl

/-- Without a line end there is one line. -/
theorem terminated_of_not_mem (h : ∀ c ∈ cs, ends c = false) (hne : cs ≠ []) :
    terminated ends cs = [cs] := by
  induction cs with
  | nil => exact absurd rfl hne
  | cons c cs ih =>
    obtain ⟨hc, hcs⟩ := List.forall_mem_cons.mp h
    rw [terminated, hc]
    cases cs with
    | nil => rfl
    | cons d cs =>
      rw [ih hcs (List.cons_ne_nil d cs)]
      rfl

theorem lines_terminated (ends : α → Bool) (cs : List α) : Lines ends (terminated ends cs) := by
  induction cs with
  | nil => exact .nil
  | cons c rest ih =>
    unfold terminated
    split
    · next hc =>
      have hline : Ended ends ([] ++ [c]) := .intro (by simp) hc
      exact .cons hline ih
    · next hc =>
      have hc : ends c = false := Bool.eq_false_iff.mpr hc
      -- The character goes in front of the first line of the rest, whether that has an end or not.
      split
      · exact .last (List.cons_ne_nil c []) (by simpa using hc)
      · next first more hrest =>
        rw [hrest] at ih
        cases ih with
        | last _ hline =>
          exact .last (List.cons_ne_nil c _) (List.forall_mem_cons.mpr ⟨hc, hline⟩)
        | cons hline hlines =>
          cases hline with
          | intro hbody hlast =>
            exact .cons (.intro (List.forall_mem_cons.mpr ⟨hc, hbody⟩) hlast) hlines

/-- Lines put together are cut where they were put together. -/
theorem terminated_flatten (h : Lines ends lines) : terminated ends lines.flatten = lines := by
  induction h with
  | nil => rfl
  | last hne hline => rw [List.flatten_singleton, terminated_of_not_mem hline hne]
  | cons hline _ ih =>
    cases hline with
    | intro hbody hlast =>
      rw [List.flatten_cons, List.append_assoc, List.singleton_append,
        terminated_append hbody hlast, ih]

/-- **The lines of a text are those that make it up.** -/
theorem terminated_eq_iff : terminated ends cs = lines ↔ lines.flatten = cs ∧ Lines ends lines := by
  constructor
  · rintro rfl
    exact ⟨flatten_terminated ends cs, lines_terminated ends cs⟩
  · rintro ⟨rfl, h⟩
    exact terminated_flatten h

/-- **Lines before a line have their ends**, and so has the line itself unless it is the last. -/
theorem Lines.append_cons (h : Lines ends (earlier ++ line :: later)) :
    (∀ l ∈ earlier, Ended ends l) ∧
      (Ended ends line ∨ (later = [] ∧ ∀ c ∈ line, ends c = false)) := by
  induction earlier with
  | nil =>
    refine ⟨by simp, ?_⟩
    cases h with
    | last _ hline => exact Or.inr ⟨rfl, hline⟩
    | cons hline _ => exact Or.inl hline
  | cons first earlier ih =>
    rw [List.cons_append] at h
    generalize hmore : earlier ++ line :: later = more at h
    cases h with
    | last => exact absurd hmore (by simp)
    | cons hfirst hlines =>
      obtain ⟨hearlier, hline⟩ := ih (hmore ▸ hlines)
      exact ⟨List.forall_mem_cons.mpr ⟨hfirst, hearlier⟩, hline⟩

/-- Lines may come after lines that have their ends. -/
theorem lines_append (hearlier : ∀ l ∈ earlier, Ended ends l) (hlater : Lines ends later) :
    Lines ends (earlier ++ later) := by
  induction earlier with
  | nil => exact hlater
  | cons first earlier ih =>
    obtain ⟨hfirst, hearlier⟩ := List.forall_mem_cons.mp hearlier
    exact .cons hfirst (ih hearlier)

theorem countP_flatten_of_ended (h : ∀ l ∈ lines, Ended ends l) :
    lines.flatten.countP ends = lines.length := by
  induction lines with
  | nil => rfl
  | cons line lines ih =>
    obtain ⟨hline, hlines⟩ := List.forall_mem_cons.mp h
    cases hline with
    | @intro body last hbody hlast =>
      have hnone : body.countP ends = 0 :=
        List.countP_eq_zero.mpr fun c hc => by simp [hbody c hc]
      rw [List.flatten_cons, List.countP_append, List.countP_append, hnone, ih hlines]
      simp [hlast, Nat.add_comm]

/-! ## Places -/

/-- **The line that holds an offset** comes after lines that hold the bytes before it. -/
theorem locateIn_eq_some_iff {number offset : Nat} {lines : List (List Char)} {located : Located} :
    locateIn number offset lines = some located ↔
      ∃ earlier later, lines = earlier ++ located.line :: later ∧
        located.number = number + earlier.length ∧
        offset = byteLength earlier.flatten + located.column ∧
        located.column < byteLength located.line := by
  induction lines generalizing number offset with
  | nil => simp [locateIn]
  | cons line lines ih =>
    rw [locateIn]
    split
    · next hlt =>
      constructor
      · intro h
        cases h
        exact ⟨[], lines, rfl, rfl, (Nat.zero_add _).symm, hlt⟩
      · rintro ⟨earlier, later, hlines, hnumber, hoffset, hcolumn⟩
        cases earlier with
        | nil =>
          cases hlines
          rw [List.flatten_nil, byteLength_nil, Nat.zero_add] at hoffset
          rw [List.length_nil, Nat.add_zero] at hnumber
          rw [hoffset, ← hnumber]
        | cons first earlier =>
          cases hlines
          rw [List.flatten_cons, byteLength_append] at hoffset
          omega
    · next hge =>
      rw [ih]
      constructor
      · rintro ⟨earlier, later, rfl, hnumber, hoffset, hcolumn⟩
        refine ⟨line :: earlier, later, rfl, ?_, ?_, hcolumn⟩
        · rw [List.length_cons]
          omega
        · rw [List.flatten_cons, byteLength_append]
          omega
      · rintro ⟨earlier, later, hlines, hnumber, hoffset, hcolumn⟩
        cases earlier with
        | nil =>
          cases hlines
          rw [List.flatten_nil, byteLength_nil] at hoffset
          omega
        | cons first earlier =>
          cases hlines
          rw [List.length_cons] at hnumber
          rw [List.flatten_cons, byteLength_append] at hoffset
          exact ⟨earlier, later, rfl, by omega, by omega, hcolumn⟩

theorem locateIn_eq_none_iff {number offset : Nat} {lines : List (List Char)} :
    locateIn number offset lines = none ↔ byteLength lines.flatten ≤ offset := by
  induction lines generalizing number offset with
  | nil => simp [locateIn]
  | cons line lines ih =>
    rw [locateIn, List.flatten_cons, byteLength_append]
    split
    · next hlt => simp; omega
    · next hge =>
      rw [ih]
      omega

variable {text : List Char} {offset : Nat}

/-- **The line of a text that holds an offset**, its number and the place in it. -/
theorem locate_eq_some_iff {located : Located} :
    locate text offset = some located ↔
      ∃ earlier later, (earlier ++ located.line :: later).flatten = text ∧
        Lines isBreak (earlier ++ located.line :: later) ∧
        located.number = earlier.length + 1 ∧
        offset = byteLength earlier.flatten + located.column ∧
        located.column < byteLength located.line := by
  rw [locate, locateIn_eq_some_iff]
  simp only [terminated_eq_iff, and_assoc, Nat.add_comm 1]

/-- An offset is in no line exactly if it is past the last byte. -/
theorem locate_eq_none_iff : locate text offset = none ↔ byteLength text ≤ offset := by
  rw [locate, locateIn_eq_none_iff, flatten_terminated]

/-- **Finding an offset undoes putting lines together.** An offset is in no line exactly if it is
not below the length of the text. It is `column` bytes into a line of some number exactly if the
text is made up of one line fewer than that, all with their ends, then the line, which has its end
too unless nothing follows, and then any rest, and if the bytes of the lines before and `column`
together are the offset. -/
theorem locate_concatenation (text : List Char) (offset : Nat) :
    (locate text offset = none ↔ byteLength text ≤ offset) ∧
      ∀ number line column, locate text offset = some ⟨number, line, column⟩ ↔
        ∃ (earlier : List (List Char)) (rest : List Char),
          text = earlier.flatten ++ (line ++ rest) ∧ number = earlier.length + 1 ∧
          (∀ l ∈ earlier, Ended isBreak l) ∧
          (Ended isBreak line ∨ (rest = [] ∧ line ≠ [] ∧ ∀ c ∈ line, isBreak c = false)) ∧
          offset = byteLength earlier.flatten + column ∧ column < byteLength line := by
  refine ⟨locate_eq_none_iff, fun number line column => ?_⟩
  rw [locate_eq_some_iff]
  constructor
  · rintro ⟨earlier, later, htext, hlines, hnumber, hoffset, hcolumn⟩
    obtain ⟨hearlier, hline⟩ := hlines.append_cons
    have hne : line ≠ [] := by
      rintro rfl
      exact Nat.not_lt_zero column hcolumn
    refine ⟨earlier, later.flatten, ?_, hnumber, hearlier, ?_, hoffset, hcolumn⟩
    · rw [← htext, List.flatten_append, List.flatten_cons]
    · refine hline.imp_right fun ⟨hlater, hbody⟩ => ⟨?_, hne, hbody⟩
      rw [hlater, List.flatten_nil]
  · rintro ⟨earlier, rest, rfl, hnumber, hearlier, hline, hoffset, hcolumn⟩
    -- The rest may be cut in any way: where its lines end does not matter for what comes before.
    refine ⟨earlier, terminated isBreak rest, ?_, lines_append hearlier ?_, hnumber, hoffset,
      hcolumn⟩
    · rw [List.flatten_append, List.flatten_cons, flatten_terminated]
    · rcases hline with hended | ⟨rfl, hne, hbody⟩
      · exact .cons hended (lines_terminated isBreak rest)
      · exact .last hne hbody

/-- A carriage return and a line feed end two lines, and columns count bytes. -/
example : locate "A\r\nBéC".toList 6 = some ⟨3, "BéC".toList, 3⟩ := by decide

/-! ## Characters in their lines -/

/-- The character `c` between `before` and `after` is in the line that is `front`, the character and
`back`, which comes after the lines `earlier` and before the lines `later`. -/
structure InLine (ends : α → Bool) (before : List α) (c : α) (after : List α)
    (earlier : List (List α)) (front back : List α) (later : List (List α)) : Prop where
  lines : Lines ends (earlier ++ (front ++ c :: back) :: later)
  before_eq : before = earlier.flatten ++ front
  after_eq : after = back ++ later.flatten

variable {before after : List α}

/-- **Every character of a text is in a line.** -/
theorem exists_inLine (ends : α → Bool) (before : List α) (c : α) (after : List α) :
    ∃ earlier front back later, InLine ends before c after earlier front back later := by
  have hflatten := flatten_terminated ends (before ++ c :: after)
  have hlines := lines_terminated ends (before ++ c :: after)
  rcases List.flatten_eq_append_iff.mp hflatten with
    ⟨earlier, more, hcut, hbefore, hmore⟩ | ⟨earlier, front, d, back, later, hcut, hbefore, hmore⟩
  · -- The text before is made of whole lines, and the character is in the first that is not empty.
    obtain ⟨none, back, later, rfl, hnone, hafter⟩ := List.flatten_eq_cons_iff.mp hmore.symm
    refine ⟨earlier ++ none, [], back, later, ?_, ?_, hafter⟩
    · rw [hcut] at hlines
      simpa using hlines
    · rw [List.flatten_append, List.flatten_eq_nil_iff.mpr hnone, List.append_nil, List.append_nil,
        hbefore]
  · rw [List.cons_append] at hmore
    cases hmore
    exact ⟨earlier, front, back, later, hcut ▸ hlines, hbefore, rfl⟩

namespace InLine

theorem flatten_eq (h : InLine ends before c after earlier front back later) :
    (earlier ++ (front ++ c :: back) :: later).flatten = before ++ c :: after := by
  rw [h.before_eq, h.after_eq]
  simp

/-- Nothing before a character in its line ends the line. -/
theorem not_ends_of_mem (h : InLine ends before c after earlier front back later) :
    ∀ d ∈ front, ends d = false := by
  intro d hd
  obtain ⟨-, hline | ⟨-, hline⟩⟩ := h.lines.append_cons
  · generalize hsplit : front ++ c :: back = line at hline
    cases hline with
    | @intro body last hbody _ =>
      have hinit := congrArg List.dropLast hsplit
      rw [List.dropLast_append_cons, List.dropLast_concat] at hinit
      exact hbody d (hinit ▸ List.mem_append_left _ hd)
  · exact hline d (List.mem_append_left _ hd)

/-- A line goes on after a character that does not end it, unless the text is over. -/
theorem back_ne_nil (h : InLine ends before c after earlier front back later)
    (hc : ends c = false) (hafter : after ≠ []) : back ≠ [] := by
  rintro rfl
  obtain ⟨-, hline | ⟨rfl, -⟩⟩ := h.lines.append_cons
  · generalize hsplit : front ++ [c] = line at hline
    cases hline with
    | intro _ hlast =>
      obtain ⟨-, heq⟩ := List.append_inj' hsplit rfl
      rw [← (List.cons.inj heq).1, hc] at hlast
      cases hlast
  · exact hafter h.after_eq

/-- **Before a character there are as many line ends as lines.** -/
theorem countP_eq (h : InLine ends before c after earlier front back later) :
    before.countP ends = earlier.length := by
  have hfront : front.countP ends = 0 :=
    List.countP_eq_zero.mpr fun d hd => by simp [h.not_ends_of_mem d hd]
  rw [h.before_eq, List.countP_append, countP_flatten_of_ended h.lines.append_cons.1, hfront,
    Nat.add_zero]

/-- A character with no line end before it is in the first line, and so is all before it. -/
theorem first (h : InLine ends before c after earlier front back later)
    (hnone : before.countP ends = 0) : earlier = [] ∧ front = before := by
  have hearlier : earlier = [] := List.eq_nil_of_length_eq_zero (h.countP_eq ▸ hnone)
  rw [h.before_eq, hearlier]
  exact ⟨rfl, rfl⟩

end InLine

section Offsets

variable {before after front back : List Char} {c : Char} {earlier later : List (List Char)}

/-- The offset of a character is in the character's line. -/
theorem InLine.locate (h : InLine isBreak before c after earlier front back later) :
    Text.locate (before ++ c :: after) (byteLength before) =
      some ⟨earlier.length + 1, front ++ c :: back, byteLength front⟩ := by
  refine locate_eq_some_iff.mpr ⟨earlier, later, h.flatten_eq, h.lines, rfl, ?_, ?_⟩
  · rw [h.before_eq, byteLength_append]
  · show byteLength front < byteLength (front ++ c :: back)
    have hc := c.utf8Size_pos
    rw [byteLength_append, byteLength_cons]
    omega

/-- The offset after a character that is no line break is in the same line, unless the text ends
there. -/
theorem InLine.locate_next (h : InLine isBreak before c after earlier front back later)
    (hc : isBreak c = false) (hafter : after ≠ []) :
    Text.locate (before ++ c :: after) (byteLength before + c.utf8Size) =
      some ⟨earlier.length + 1, front ++ c :: back, byteLength front + c.utf8Size⟩ := by
  refine locate_eq_some_iff.mpr ⟨earlier, later, h.flatten_eq, h.lines, rfl, ?_, ?_⟩
  · rw [h.before_eq, byteLength_append, Nat.add_assoc]
  · show byteLength front + c.utf8Size < byteLength (front ++ c :: back)
    have hback := byteLength_pos (h.back_ne_nil hc hafter)
    rw [byteLength_append, byteLength_cons]
    omega

end Offsets

end LayoutLex.Text
