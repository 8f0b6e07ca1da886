import LayoutLex.Proofs.Runs
import LayoutLex.Text.Lines

/-!
# Maximal runs

The lines of a source and the fields of a line are both the maximal runs of characters that are not
separators. A run is maximal if it is not empty and can go on neither to the left nor to the right.

* `MaximalRun` says where in a text such a run stands.

Results:
* `runs_append_left`, `runs_append_right`: separators around a text add no run.
* `runs_append_cons`: a separator cuts a text in two, and each part has its own runs.
* `MaximalRun.runs_eq`: the runs before, the run and the runs after.
* `mem_runs_iff`: the runs of a text are its maximal runs.
-/

namespace LayoutLex.Text

variable {sep : Char → Bool} {cs run lead tail rest : List Char} {more : List (List Char)}

/-! ## The first run -/

theorem runs_append_left (h : ∀ c ∈ lead, sep c = true) (cs : List Char) :
    runs sep (lead ++ cs) = runs sep cs := by
  induction lead with
  | nil => rfl
  | cons c lead ih =>
    obtain ⟨hc, hlead⟩ := List.forall_mem_cons.mp h
    rw [List.cons_append, runs, if_pos hc, ih hlead]

theorem runs_eq_nil_iff : runs sep cs = [] ↔ ∀ c ∈ cs, sep c = true := by
  fun_induction runs sep cs with
  | case1 => simp
  | case2 c rest hsep ih => simp [hsep, ih]
  | case3 c rest hsep ih => simp [hsep]

/-- A run before something that ends it is the first run. -/
theorem runs_append_of_stops (hne : run ≠ []) (hrun : ∀ c ∈ run, sep c = false)
    (hrest : Stops (!sep ·) rest) : runs sep (run ++ rest) = run :: runs sep rest := by
  cases run with
  | nil => exact absurd rfl hne
  | cons c run =>
    obtain ⟨hc, hrun⟩ := List.forall_mem_cons.mp hrun
    have hrun : ∀ d ∈ run, (!sep d) = true := fun d hd => by simp [hrun d hd]
    rw [List.cons_append, runs, hc, if_neg Bool.false_ne_true,
      takeWhile_append_of_stops hrun hrest, dropWhile_append_of_stops hrun hrest]

theorem stops_of_forall (h : ∀ c ∈ cs, sep c = true) : Stops (!sep ·) cs := by
  intro c hc
  simp [h c (List.mem_of_mem_head? hc)]

/-- Separators at the end of a text end its last run and add none. -/
theorem runs_append_right (h : ∀ c ∈ tail, sep c = true) (cs : List Char) :
    runs sep (cs ++ tail) = runs sep cs := by
  have hstops := stops_of_forall h
  fun_induction runs sep cs with
  | case1 => exact runs_eq_nil_iff.mpr h
  | case2 c rest hsep ih => rw [List.cons_append, runs, if_pos hsep, ih]
  | case3 c rest hsep ih =>
    rw [List.cons_append, runs, if_neg hsep, takeWhile_append_of_stops_right hstops,
      dropWhile_append_of_stops_right hstops, ih]

/-- Before the first run there are separators, and something ends it. -/
theorem exists_of_runs_eq_cons (h : runs sep cs = run :: more) :
    ∃ lead rest, cs = lead ++ (run ++ rest) ∧ (∀ c ∈ lead, sep c = true) ∧ run ≠ [] ∧
      (∀ c ∈ run, sep c = false) ∧ Stops (!sep ·) rest ∧ runs sep rest = more := by
  fun_induction runs sep cs with
  | case1 => cases h
  | case2 c rest hsep ih =>
    obtain ⟨lead, rest, rfl, hlead, hrun⟩ := ih h
    exact ⟨c :: lead, rest, rfl, List.forall_mem_cons.mpr ⟨hsep, hlead⟩, hrun⟩
  | case3 c rest hsep ih =>
    cases h
    refine ⟨[], rest.dropWhile (!sep ·), ?_, by simp, List.cons_ne_nil c _, ?_,
      stops_dropWhile _ rest, rfl⟩
    · rw [List.nil_append, List.cons_append, List.takeWhile_append_dropWhile]
    · refine List.forall_mem_cons.mpr ⟨by simpa using hsep, fun d hd => ?_⟩
      simpa using mem_takeWhile hd

/-! ## All runs -/

/-- **A separator cuts a text in two**, and each part has its own runs. -/
theorem runs_append_cons {c : Char} (hsep : sep c = true) (a b : List Char) :
    runs sep (a ++ c :: b) = runs sep a ++ runs sep b := by
  have hstops : Stops (!sep ·) (c :: b) := by simp [stops_cons, hsep]
  have hskip : runs sep (c :: b) = runs sep b := by rw [runs, if_pos hsep]
  fun_induction runs sep a with
  | case1 => exact hskip
  | case2 d rest hd ih => rw [List.cons_append, runs, if_pos hd, ih]
  | case3 d rest hd ih =>
    rw [List.cons_append, runs, if_neg hd, takeWhile_append_of_stops_right hstops,
      dropWhile_append_of_stops_right hstops, ih, List.cons_append]

/-- The middle one of three parts of a text is a maximal run. -/
structure MaximalRun (sep : Char → Bool) (before run after : List Char) : Prop where
  ne_nil : run ≠ []
  outside : ∀ c ∈ run, sep c = false
  starts : ∀ c ∈ before.getLast?, sep c = true
  ends : ∀ c ∈ after.head?, sep c = true

variable {before after : List Char}

instance : Decidable (MaximalRun sep before run after) :=
  decidable_of_iff (run ≠ [] ∧ run.all (!sep ·) = true ∧ before.getLast?.all sep = true ∧
      after.head?.all sep = true) <| by
    simp only [List.all_eq_true, Option.all_eq_true, Bool.not_eq_true']
    exact ⟨fun ⟨hne, hrun, hstarts, hends⟩ => ⟨hne, hrun, hstarts, hends⟩,
      fun h => ⟨h.ne_nil, h.outside, h.starts, h.ends⟩⟩

/-- After a separator the runs start anew. -/
theorem runs_append_of_getLast? (h : ∀ c ∈ before.getLast?, sep c = true) (cs : List Char) :
    runs sep (before ++ cs) = runs sep before ++ runs sep cs := by
  rcases List.eq_nil_or_concat before with rfl | ⟨init, c, rfl⟩
  · rw [runs, List.nil_append, List.nil_append]
  · have hsep : sep c = true := h c (by simp)
    have hinit : runs sep (init ++ [c]) = runs sep init := runs_append_right (by simp [hsep]) init
    rw [List.concat_eq_append, hinit, List.append_assoc, List.singleton_append,
      runs_append_cons hsep]

/-- **The runs of a text around a maximal run** are those before it, itself and those after it. -/
theorem MaximalRun.runs_eq (h : MaximalRun sep before run after) :
    runs sep (before ++ run ++ after) = runs sep before ++ run :: runs sep after := by
  have hstops : Stops (!sep ·) after := fun c hc => by simp [h.ends c hc]
  rw [List.append_assoc, runs_append_of_getLast? h.starts,
    runs_append_of_stops h.ne_nil h.outside hstops]

theorem exists_maximalRun_of_mem (h : run ∈ runs sep cs) :
    ∃ before after, cs = before ++ run ++ after ∧ MaximalRun sep before run after := by
  fun_induction runs sep cs with
  | case1 => cases h
  | case2 c rest hsep ih =>
    obtain ⟨before, after, rfl, hrun⟩ := ih h
    refine ⟨c :: before, after, rfl, hrun.ne_nil, hrun.outside, ?_, hrun.ends⟩
    cases before with
    | nil => simpa using hsep
    | cons d before => exact hrun.starts
  | case3 c rest hsep ih =>
    have hsplit : c :: rest = (c :: rest.takeWhile (!sep ·)) ++ rest.dropWhile (!sep ·) := by
      rw [List.cons_append, List.takeWhile_append_dropWhile]
    have houtside : ∀ d ∈ c :: rest.takeWhile (!sep ·), sep d = false :=
      List.forall_mem_cons.mpr ⟨by simpa using hsep, fun d hd => by simpa using mem_takeWhile hd⟩
    have hends : ∀ d ∈ (rest.dropWhile (!sep ·)).head?, sep d = true := fun d hd => by
      simpa using stops_dropWhile (!sep ·) rest d hd
    rcases List.mem_cons.mp h with rfl | hmem
    · exact ⟨[], _, hsplit, List.cons_ne_nil c _, houtside, by simp, hends⟩
    · obtain ⟨before, after, heq, hrun⟩ := ih hmem
      refine ⟨(c :: rest.takeWhile (!sep ·)) ++ before, after, ?_, hrun.ne_nil, hrun.outside, ?_,
        hrun.ends⟩
      · rw [hsplit, heq]
        simp only [List.append_assoc]
      -- The first run has ended, so something that is no part of a run comes before the next one.
      · cases before with
        | nil =>
          obtain ⟨d, run, rfl⟩ := List.exists_cons_of_ne_nil hrun.ne_nil
          have hd : sep d = true := hends d (by simp [heq])
          rw [hrun.outside d List.mem_cons_self] at hd
          cases hd
        | cons d before =>
          rw [List.getLast?_append, List.getLast?_cons, Option.some_or, ← List.getLast?_cons]
          exact hrun.starts

/-- **The runs of a text are its maximal runs.** -/
theorem mem_runs_iff :
    run ∈ runs sep cs ↔
      ∃ before after, cs = before ++ run ++ after ∧ MaximalRun sep before run after := by
  refine ⟨exists_maximalRun_of_mem, ?_⟩
  rintro ⟨before, after, rfl, h⟩
  rw [h.runs_eq]
  simp

end LayoutLex.Text
