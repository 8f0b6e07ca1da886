import LayoutLex.Proofs.ManifestFaults
import LayoutLex.Proofs.MaximalRuns
import LayoutLex.Proofs.Number.Patterns
import Mathlib.Data.Set.Card

/-!
# The format of manifests

What may stand in a line of a manifest, said without the functions that read it: nothing, a comment,
or a role and a name with blanks around them and between. A manifest is accepted exactly if all its
lines are of this format, and what it registers can be read off the lines.

* `Registers` is a line that gives a name a role.
* `SaysNothing` is a line that is empty or a comment.
* `WellFormed` is a line that is one of the two.

Results:
* `fields_eq_pair_iff`: what it is for a line to have two fields.
* `registers_iff`: reading a line as an entry decides `Registers`.
* `accepted_iff`: a line is accepted exactly if it is well-formed.
* `ofManifest_format`: when a manifest is accepted, what it registers, and where it is faulty if it
  is not.
-/

namespace LayoutLex

namespace Text

/-! ## Fields -/

/-- A line that is two words without blanks, with blanks between and perhaps around them. -/
inductive TwoWords : List Char → List Char → List Char → Prop
  | intro {before first between second after : List Char}
      (hbefore : ∀ c ∈ before, isBlank c = true) (hbetween : ∀ c ∈ between, isBlank c = true)
      (hafter : ∀ c ∈ after, isBlank c = true) (hne : between ≠ [])
      (hfirst : first ≠ [] ∧ ∀ c ∈ first, isBlank c = false)
      (hsecond : second ≠ [] ∧ ∀ c ∈ second, isBlank c = false) :
      TwoWords (before ++ (first ++ (between ++ (second ++ after)))) first second

/-- **A line has two fields exactly if it is two words.** -/
theorem fields_eq_pair_iff {line first second : List Char} :
    fields line = [first, second] ↔ TwoWords line first second := by
  constructor
  · intro h
    obtain ⟨before, rest, rfl, hbefore, hfirst, hsolid, hstops, hrest⟩ := exists_of_runs_eq_cons h
    obtain ⟨between, after, rfl, hbetween, hsecond, hsolid', -, hafter⟩ :=
      exists_of_runs_eq_cons hrest
    refine .intro hbefore hbetween (runs_eq_nil_iff.mp hafter) ?_ ⟨hfirst, hsolid⟩
      ⟨hsecond, hsolid'⟩
    -- The first word would go on with the second if there were nothing between.
    rintro rfl
    obtain ⟨c, cs, rfl⟩ := List.exists_cons_of_ne_nil hsecond
    have hc : (!isBlank c) = false := stops_cons.mp hstops
    rw [hsolid' c List.mem_cons_self] at hc
    cases hc
  · intro h
    cases h with
    | intro hbefore hbetween hafter hne hfirst hsecond =>
      rw [fields, runs_append_left hbefore,
        runs_append_of_stops hfirst.1 hfirst.2 (stops_append hne (stops_of_forall hbetween) _),
        runs_append_left hbetween,
        runs_append_of_stops hsecond.1 hsecond.2 (stops_of_forall hafter),
        runs_eq_nil_iff.mpr hafter]

/-- Trimming a line does not change its fields. -/
theorem fields_trim (line : List Char) : fields (trim line) = fields line := by
  by_cases htrim : trim line = []
  · rw [htrim]
    have hline : fields line = [] := runs_eq_nil_iff.mpr (isBlank_of_trim_eq_nil htrim)
    rw [hline, fields, runs]
  · have hleading : ∀ c ∈ leading line, isBlank c = true := fun _ hc => mem_takeWhile hc
    have htrailing : ∀ c ∈ trailing line, isBlank c = true :=
      fun _ hc => mem_takeWhile (List.mem_reverse.mp hc)
    conv_rhs => rw [← leading_append_trim_append_trailing htrim]
    rw [fields, fields, runs_append_right htrailing, runs_append_left hleading]

end Text

/-- A set has as many members as there are. -/
theorem NameSet.size_eq_ncard (s : NameSet) : s.size = {name | name ∈ s}.ncard := by
  have hmembers : {name | name ∈ s} = ↑s.names.toFinset := by
    ext name
    rw [List.coe_toFinset]
    rfl
  have hnodup : s.names.Nodup := s.sorted.imp Std.ne_of_lt
  rw [hmembers, Set.ncard_coe_finset, List.toFinset_card_of_nodup hnodup, size]

namespace Catalogue

open Text
open scoped Computability

/-! ## What a line says -/

/-- An uppercase letter. -/
def IsLetter (c : Char) : Prop :=
  'A' ≤ c ∧ c ≤ 'Z'

/-- An uppercase letter, a digit or one of three marks. -/
def IsLetterOrMark (c : Char) : Prop :=
  IsLetter c ∨ ('0' ≤ c ∧ c ≤ '9') ∨ c = '_' ∨ c = '$' ∨ c = '#'

/-- The language of the pattern of names, `[A-Z][A-Z0-9_$#]*`. -/
def nameLanguage : Language Char :=
  classLanguage IsLetter * (classLanguage IsLetterOrMark)∗

/-- The line gives the name a role: it is a word for the role, in any case, and the name. -/
def Registers (line : List Char) (role : Role) (name : String) : Prop :=
  ∃ word, TwoWords line word name.toList ∧ uppercase word = role.word.toList ∧
    name.toList ∈ nameLanguage

/-- The line has nothing but blanks, or nothing but blanks before a number sign. -/
def SaysNothing (line : List Char) : Prop :=
  trim line = [] ∨ ∃ comment, trim line = '#' :: comment

/-- The line may stand in a manifest. -/
def WellFormed (line : List Char) : Prop :=
  SaysNothing line ∨ ∃ role name, Registers line role name

theorem isNameStart_iff {c : Char} : isNameStart c = true ↔ IsLetter c :=
  decide_eq_true_iff

theorem isNameChar_iff {c : Char} : isNameChar c = true ↔ IsLetterOrMark c := by
  have hdigit : c.isDigit = true ↔ '0' ≤ c ∧ c ≤ '9' := by simp [Char.isDigit, Char.le_def]
  have hletter : c.isUpper = true ↔ IsLetter c := isNameStart_iff
  simp only [isNameChar, IsLetterOrMark, Bool.or_eq_true, hletter, hdigit, beq_iff_eq, or_assoc]

theorem mem_nameLanguage_iff {name : List Char} : name ∈ nameLanguage ↔ isName name = true := by
  rw [nameLanguage, mem_class_mul_kstar_iff]
  cases name with
  | nil => simp [isName]
  | cons c rest => simp [isName, isNameStart_iff, isNameChar_iff]

theorem isComment_iff {line : List Char} : isComment (trim line) = true ↔ SaysNothing line := by
  rw [isComment, SaysNothing, Bool.or_eq_true, List.isEmpty_iff, beq_iff_eq, List.head?_eq_some_iff]

/-- **Reading a line as an entry** decides what it registers. -/
theorem registers_iff {line : List Char} {role : Role} {name : String} :
    Registers line role name ↔ Entry.ofLine? (trim line) = some ⟨role, name⟩ := by
  rw [Entry.ofLine?_eq_some_iff, fields_trim]
  simp only [Registers, fields_eq_pair_iff, mem_nameLanguage_iff]
  constructor
  · rintro ⟨word, hline, hword, hname⟩
    exact ⟨hname, word, hline, hword⟩
  · rintro ⟨hname, word, hline, hword⟩
    exact ⟨word, hline, hword, hname⟩

/-- A line that registers a name is no comment: no word for a role starts as a comment does. -/
theorem Registers.not_isComment {line : List Char} {role : Role} {name : String}
    (h : Registers line role name) : isComment (trim line) = false := by
  obtain ⟨word, hline, hword, -⟩ := h
  have hfields := fields_eq_pair_iff.mpr hline
  rw [← fields_trim] at hfields
  rw [Bool.eq_false_iff]
  intro hcomment
  rcases isComment_iff.mp hcomment with hempty | ⟨comment, hsign⟩
  · rw [hempty, fields, runs] at hfields
    cases hfields
  · rw [hsign, fields, runs] at hfields
    obtain ⟨rest, hrest⟩ : ∃ rest, word = '#' :: rest := ⟨_, (List.cons.inj hfields).1.symm⟩
    rw [hrest] at hword
    cases role <;> cases hword

/-- **A line is accepted exactly if it is well-formed.** -/
theorem accepted_iff {line : List Char} : Accepted line ↔ WellFormed line := by
  rw [Accepted, WellFormed, isComment_iff, Option.isSome_iff_exists]
  refine or_congr_right ⟨?_, ?_⟩
  · rintro ⟨⟨role, name⟩, hentry⟩
    exact ⟨role, name, registers_iff.mpr hentry⟩
  · rintro ⟨role, name, hregisters⟩
    exact ⟨_, registers_iff.mp hregisters⟩

/-! ## Manifests -/

variable {manifest file : String} {c : Catalogue}

/-- An accepted manifest lists what its lines register. -/
theorem lists_iff (h : ofManifest manifest file = .ok c) (role : Role) (name : String) :
    Lists manifest role name ↔
      ∃ line ∈ terminated (· == '\n') manifest.toList, Registers line role name := by
  rw [← exists_entry_iff h, mem_entriesOf]
  refine exists_congr fun line => and_congr_right fun _ => ?_
  rw [← registers_iff]
  exact ⟨fun hline => hline.2, fun hline => ⟨hline.not_isComment, hline⟩⟩

/-- A manifest is accepted exactly if all its lines are well-formed. -/
theorem exists_ofManifest_iff : (∃ c, ofManifest manifest file = .ok c) ↔
    ∀ line ∈ terminated (· == '\n') manifest.toList, WellFormed line := by
  simp only [ofManifest, addLines_eq_ok_iff, exists_and_left, exists_eq, and_true,
    ← accepted_iff]
  refine forall₂_congr fun line _ => ?_
  rw [Accepted, ← Bool.not_eq_true]
  exact Decidable.or_iff_not_imp_left.symm

/-- **The format of manifests.** A manifest has one list of lines that end with line feeds. It is
accepted exactly if each of them is well-formed; then the functions and the commands are the names
that some line registers as such or as both, and the catalogue has the size of the set of names
registered. It has a fault exactly if some line is not well-formed, and the fault is the first such
line without the blanks at its ends, at the offset where the line starts. -/
theorem ofManifest_format (manifest file : String) :
    ∃ lines, lines.flatten = manifest.toList ∧ Lines (· == '\n') lines ∧
      ((∃ c, ofManifest manifest file = .ok c) ↔ ∀ line ∈ lines, WellFormed line) ∧
      (∀ c, ofManifest manifest file = .ok c →
        (∀ name, c.isFunction name = true ↔
          ∃ line ∈ lines, Registers line .function name ∨ Registers line .both name) ∧
        (∀ name, c.isCommand name = true ↔
          ∃ line ∈ lines, Registers line .command name ∨ Registers line .both name) ∧
        c.size = {name | ∃ line ∈ lines, ∃ role, Registers line role name}.ncard) ∧
      ∀ fault, ofManifest manifest file = .error fault ↔
        ∃ earlier line later, lines = earlier ++ line :: later ∧
          (∀ l ∈ earlier, WellFormed l) ∧ ¬ WellFormed line ∧
          fault = ⟨.badEntry (String.ofList (trim line)), ⟨byteLength earlier.flatten, file⟩⟩ := by
  refine ⟨terminated (· == '\n') manifest.toList, flatten_terminated _ _, lines_terminated _ _,
    exists_ofManifest_iff, fun c h => ⟨fun name => ?_, fun name => ?_, ?_⟩, fun fault => ?_⟩
  · rw [isFunction, decide_eq_true_iff, mem_functions_ofManifest h, ListsFunction, lists_iff h,
      lists_iff h]
    simp only [and_or_left, exists_or]
  · rw [isCommand, decide_eq_true_iff, mem_commands_ofManifest h, ListsCommand, lists_iff h,
      lists_iff h]
    simp only [and_or_left, exists_or]
  · rw [size, NameSet.size_eq_ncard]
    refine congrArg Set.ncard (Set.ext fun name => (mem_symbols_ofManifest h name).trans ?_)
    simp only [lists_iff h]
    exact ⟨fun ⟨role, line, hline, hname⟩ => ⟨line, hline, role, hname⟩,
      fun ⟨line, hline, role, hname⟩ => ⟨role, line, hline, hname⟩⟩
  · simp only [ofManifest, addLines_eq_error_iff, Nat.zero_add, accepted_iff]

/-- A name may be given one role after another, and the same again. -/
theorem ofManifest_format_repeated :
    let manifest := "# drawing\r\n\n\tcommand  PLOT\r\nFUNCTION PLOT\nBoth VARS\nCOMMAND PLOT "
    ∃ (lines : List (List Char)) (c : Catalogue), lines.flatten = manifest.toList ∧
      ofManifest manifest "names" = .ok c ∧ (∀ line ∈ lines, WellFormed line) ∧
      (∃ line ∈ lines, Registers line .function "PLOT" ∨ Registers line .both "PLOT") ∧
      (∃ line ∈ lines, Registers line .command "PLOT" ∨ Registers line .both "PLOT") ∧
      {name | ∃ line ∈ lines, ∃ role, Registers line role name}.ncard = 2 := by
  intro manifest
  let c : Catalogue := ⟨.ofList ["PLOT", "VARS"], .ofList ["PLOT", "VARS"]⟩
  have h : ofManifest manifest "names" = .ok c := by decide +kernel
  obtain ⟨lines, htext, -, haccepted, hregistered, -⟩ := ofManifest_format manifest "names"
  obtain ⟨hfunctions, hcommands, hsize⟩ := hregistered c h
  exact ⟨lines, c, htext, h, haccepted.mp ⟨c, h⟩, (hfunctions "PLOT").mp (by decide),
    (hcommands "PLOT").mp (by decide), hsize.symm.trans (by decide)⟩

end Catalogue

end LayoutLex
