import LayoutLex.Catalogue.Manifest

/-!
# What a manifest registers

An accepted manifest is the catalogue of its entries, added one after another to the empty
catalogue. An entry adds its role to what its name already is and takes nothing away, so what a name
is depends on which roles it is listed in, and neither on the order of the lines nor on how often a
line is repeated.

* `Lists` is what it means for a manifest to list a name in a role, in terms of its lines.
* `entriesOf` are the entries of some lines.

Results:
* `addLines_eq_ok_iff`: lines are accepted exactly if each is an entry or says nothing, and they
  give the catalogue of their entries.
* `mem_functions_ofManifest`, `mem_commands_ofManifest`, `mem_symbols_ofManifest`: what an accepted
  manifest registers.
* `hasNames_ofManifest`: all of that are names.
-/

namespace LayoutLex.Catalogue

open Text

/-- The uppercase form of the word for a role. -/
def Role.word : Role → String
  | function => "FUNCTION"
  | command => "COMMAND"
  | both => "BOTH"

/-- The manifest lists the name in the role: some line, which is no comment, has the role in any
case and the name for its only fields. -/
def Lists (manifest : String) (role : Role) (name : String) : Prop :=
  ∃ line ∈ terminated (· == '\n') manifest.toList, isComment (trim line) = false ∧
    ∃ word, fields (trim line) = [word, name.toList] ∧ uppercase word = role.word.toList

/-- The manifest says that the name is a function. -/
def ListsFunction (manifest name : String) : Prop :=
  Lists manifest .function name ∨ Lists manifest .both name

/-- The manifest says that the name is a command. -/
def ListsCommand (manifest name : String) : Prop :=
  Lists manifest .command name ∨ Lists manifest .both name

/-- The catalogue's names are such as a program can contain. -/
def HasNames (c : Catalogue) : Prop :=
  ∀ name ∈ c.symbols, isName name.toList = true

/-! ## Entries -/

theorem Role.ofWord?_eq_some_iff {word : List Char} {role : Role} :
    Role.ofWord? word = some role ↔ uppercase word = role.word.toList := by
  unfold Role.ofWord?
  dsimp only
  constructor
  · intro h
    split at h
    · next hword => cases h; exact hword
    split at h
    · next hword => cases h; exact hword
    split at h
    · next hword => cases h; exact hword
    · cases h
  · intro h
    rw [h]
    cases role <;> decide

theorem Entry.ofLine?_eq_some_iff {line : List Char} {entry : Entry} :
    Entry.ofLine? line = some entry ↔
      isName entry.name.toList = true ∧ ∃ word, fields line = [word, entry.name.toList] ∧
        uppercase word = entry.role.word.toList := by
  constructor
  · intro h
    unfold Entry.ofLine? at h
    split at h
    · next word name hfields =>
      split at h
      · next hname =>
        obtain ⟨role, hrole, rfl⟩ := Option.map_eq_some_iff.mp h
        simp only [String.toList_ofList]
        exact ⟨hname, word, hfields, Role.ofWord?_eq_some_iff.mp hrole⟩
      · cases h
    · cases h
  · rintro ⟨hname, word, hfields, hword⟩
    unfold Entry.ofLine?
    simp only [hfields, hname, if_true, Role.ofWord?_eq_some_iff.mpr hword, Option.map_some,
      String.ofList_toList]

/-- The entries among some lines, in order. -/
def entriesOf (lines : List (List Char)) : List Entry :=
  lines.filterMap fun line =>
    if isComment (trim line) then none else Entry.ofLine? (trim line)

theorem mem_entriesOf {lines : List (List Char)} {entry : Entry} :
    entry ∈ entriesOf lines ↔
      ∃ line ∈ lines, isComment (trim line) = false ∧ Entry.ofLine? (trim line) = some entry := by
  simp [entriesOf]

/-! ## The catalogue of some lines -/

/-- **Lines are accepted exactly if each of them is an entry or says nothing**, and then they give
the catalogue of their entries. -/
theorem addLines_eq_ok_iff {file : String} {offset : Nat} {c found : Catalogue}
    {lines : List (List Char)} :
    addLines file offset c lines = .ok found ↔
      (∀ line ∈ lines, isComment (trim line) = false → (Entry.ofLine? (trim line)).isSome) ∧
        found = (entriesOf lines).foldl add c := by
  induction lines generalizing offset c with
  | nil =>
    rw [addLines, Except.ok.injEq, eq_comm]
    simp [entriesOf]
  | cons line lines ih =>
    rw [addLines, List.forall_mem_cons]
    split
    · next hcomment => simp [ih, hcomment, entriesOf]
    · next hcomment =>
      split
      · next entry hentry => simp [ih, hcomment, hentry, entriesOf]
      · next hentry => simp [hcomment, hentry]

/-! ## Adding entries -/

theorem mem_functions_add (c : Catalogue) (entry : Entry) (name : String) :
    name ∈ (c.add entry).functions ↔
      (entry.name = name ∧ entry.role ≠ .command) ∨ name ∈ c.functions := by
  unfold add
  cases entry.role <;> simp [addFunction, addCommand, eq_comm]

theorem mem_commands_add (c : Catalogue) (entry : Entry) (name : String) :
    name ∈ (c.add entry).commands ↔
      (entry.name = name ∧ entry.role ≠ .function) ∨ name ∈ c.commands := by
  unfold add
  cases entry.role <;> simp [addFunction, addCommand, eq_comm]

/-- What one step adds to a part of a catalogue, steps one after another add. -/
theorem mem_foldl {α : Type} (part : Catalogue → NameSet) {step : Catalogue → α → Catalogue}
    {adds : α → String → Prop}
    (hstep : ∀ (c : Catalogue) (a : α) (name : String),
      name ∈ part (step c a) ↔ adds a name ∨ name ∈ part c)
    (as : List α) (c : Catalogue) (name : String) :
    name ∈ part (as.foldl step c) ↔ (∃ a ∈ as, adds a name) ∨ name ∈ part c := by
  induction as generalizing c with
  | nil => simp
  | cons a as ih =>
    rw [List.foldl_cons, ih, hstep]
    simp only [List.mem_cons, exists_eq_or_imp]
    exact or_left_comm.trans or_assoc.symm

/-! ## The catalogue of a manifest -/

variable {manifest file : String} {c : Catalogue}

/-- The entries of an accepted manifest are what it lists. -/
theorem exists_entry_iff (h : ofManifest manifest file = .ok c) (role : Role) (name : String) :
    (⟨role, name⟩ : Entry) ∈ entriesOf (terminated (· == '\n') manifest.toList) ↔
      Lists manifest role name := by
  obtain ⟨haccepted, -⟩ := addLines_eq_ok_iff.mp h
  rw [mem_entriesOf]
  constructor
  · rintro ⟨line, hline, hcomment, hentry⟩
    exact ⟨line, hline, hcomment, (Entry.ofLine?_eq_some_iff.mp hentry).2⟩
  · rintro ⟨line, hline, hcomment, word, hfields, hword⟩
    -- The line is an entry, so its second field is a name.
    obtain ⟨entry, hentry⟩ := Option.isSome_iff_exists.mp (haccepted line hline hcomment)
    obtain ⟨hname, _, hfields', -⟩ := Entry.ofLine?_eq_some_iff.mp hentry
    rw [hfields, List.cons.injEq, List.cons.injEq] at hfields'
    rw [← hfields'.2.1] at hname
    exact ⟨line, hline, hcomment, Entry.ofLine?_eq_some_iff.mpr ⟨hname, word, hfields, hword⟩⟩

/-- What entries say that a part of the catalogue goes by, the manifest lists. -/
theorem mem_part_ofManifest {part : Catalogue → NameSet} (gives : Role → Prop)
    (hempty : ∀ name, name ∉ part empty)
    (hadd : ∀ (c : Catalogue) (entry : Entry) (name : String),
      name ∈ part (c.add entry) ↔ (entry.name = name ∧ gives entry.role) ∨ name ∈ part c)
    (h : ofManifest manifest file = .ok c) (name : String) :
    name ∈ part c ↔ ∃ role, gives role ∧ Lists manifest role name := by
  obtain ⟨-, rfl⟩ := addLines_eq_ok_iff.mp h
  rw [mem_foldl part hadd, or_iff_left (hempty name)]
  constructor
  · rintro ⟨⟨role, _⟩, hentry, rfl, hgives⟩
    exact ⟨role, hgives, (exists_entry_iff h role _).mp hentry⟩
  · rintro ⟨role, hgives, hlists⟩
    exact ⟨⟨role, name⟩, (exists_entry_iff h role name).mpr hlists, rfl, hgives⟩

/-- **The functions of an accepted manifest are the names it lists as functions.** -/
theorem mem_functions_ofManifest (h : ofManifest manifest file = .ok c) (name : String) :
    name ∈ c.functions ↔ ListsFunction manifest name := by
  rw [mem_part_ofManifest (· ≠ .command) NameSet.not_mem_empty mem_functions_add h]
  constructor
  · rintro ⟨role, hgives, hlists⟩
    cases role with
    | function => exact Or.inl hlists
    | command => exact absurd rfl hgives
    | both => exact Or.inr hlists
  · rintro (hlists | hlists)
    · exact ⟨.function, by decide, hlists⟩
    · exact ⟨.both, by decide, hlists⟩

/-- **The commands of an accepted manifest are the names it lists as commands.** -/
theorem mem_commands_ofManifest (h : ofManifest manifest file = .ok c) (name : String) :
    name ∈ c.commands ↔ ListsCommand manifest name := by
  rw [mem_part_ofManifest (· ≠ .function) NameSet.not_mem_empty mem_commands_add h]
  constructor
  · rintro ⟨role, hgives, hlists⟩
    cases role with
    | function => exact absurd rfl hgives
    | command => exact Or.inl hlists
    | both => exact Or.inr hlists
  · rintro (hlists | hlists)
    · exact ⟨.command, by decide, hlists⟩
    · exact ⟨.both, by decide, hlists⟩

/-- An accepted manifest registers the names that it lists in some role. -/
theorem mem_symbols_ofManifest (h : ofManifest manifest file = .ok c) (name : String) :
    name ∈ c.symbols ↔ ∃ role, Lists manifest role name := by
  rw [symbols, NameSet.mem_union, mem_functions_ofManifest h, mem_commands_ofManifest h]
  constructor
  · rintro ((hlists | hlists) | (hlists | hlists))
    · exact ⟨_, hlists⟩
    · exact ⟨_, hlists⟩
    · exact ⟨_, hlists⟩
    · exact ⟨_, hlists⟩
  · rintro ⟨role, hlists⟩
    cases role with
    | function => exact Or.inl (Or.inl hlists)
    | command => exact Or.inr (Or.inl hlists)
    | both => exact Or.inl (Or.inr hlists)

/-! ## Names -/

theorem hasNames_empty : empty.HasNames := by
  intro name hname
  simp [symbols, empty] at hname

theorem HasNames.add (h : c.HasNames) {entry : Entry}
    (hentry : isName entry.name.toList = true) : (c.add entry).HasNames := by
  intro name hname
  rw [symbols, NameSet.mem_union, mem_functions_add, mem_commands_add] at hname
  rcases hname with (⟨rfl, -⟩ | hmem) | ⟨rfl, -⟩ | hmem
  · exact hentry
  · exact h name (NameSet.mem_union.mpr (Or.inl hmem))
  · exact hentry
  · exact h name (NameSet.mem_union.mpr (Or.inr hmem))

/-- **A manifest lists only names.** -/
theorem hasNames_ofManifest (h : ofManifest manifest file = .ok c) : c.HasNames := by
  intro name hname
  obtain ⟨role, hlists⟩ := (mem_symbols_ofManifest h name).mp hname
  obtain ⟨_, -, -, hentry⟩ := mem_entriesOf.mp ((exists_entry_iff h role name).mpr hlists)
  exact (Entry.ofLine?_eq_some_iff.mp hentry).1

end LayoutLex.Catalogue
