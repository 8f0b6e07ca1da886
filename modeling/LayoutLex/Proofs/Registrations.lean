import LayoutLex.Proofs.Classification
import LayoutLex.Proofs.ManifestFormat
import LayoutLex.Proofs.Registered
import LayoutLex.Proofs.Wildcard

/-!
# What a catalogue remembers

A catalogue is filled by registrations, each of which says of one name that it is a function or that
it is a command. It remembers what has been said and nothing else: not in which order, not how
often.

* `Registration` is one of the two ways to fill a catalogue, `ofRegistrations` the catalogue after
  any number of them.
* `stored?` sees a catalogue as a table from names to flags, one for each way.
* `Knows` are a catalogue's answers where they depend on what has been said alone.

Results:
* `stored?_register`: a registration sets one flag of one name, in an entry of the table that is
  made without flags if the name has none yet.
* `existsUnique_role_iff`: the names of a catalogue have one role each, and no other name has one.
* `knows_ofRegistrations`: a catalogue knows its registrations.
* `ofRegistrations_eq_iff`: catalogues are equal exactly if the same has been said.
* `ofRegistrations_contents`: all of this together.
-/

namespace LayoutLex.Catalogue

/-- Something that is said of a name. -/
inductive Registration where
  | function (name : String)
  | command (name : String)
  deriving DecidableEq

/-- What the registration is about. -/
def Registration.name : Registration → String
  | function name => name
  | command name => name

/-- The catalogue with one more registration. -/
def register (c : Catalogue) : Registration → Catalogue
  | .function name => c.addFunction name
  | .command name => c.addCommand name

/-- The empty catalogue with some registrations, made one after another. -/
def ofRegistrations (registrations : List Registration) : Catalogue :=
  registrations.foldl register empty

/-- What has been said of a name. -/
structure Flags where
  function : Bool := false
  command : Bool := false
  deriving DecidableEq

/-- The flags with the one that the registration sets. -/
def Flags.set (flags : Flags) : Registration → Flags
  | .function _ => { flags with function := true }
  | .command _ => { flags with command := true }

/-- What the catalogue has stored under the name. -/
def stored? (c : Catalogue) (name : String) : Option Flags :=
  if name ∈ c.symbols then some ⟨c.isFunction name, c.isCommand name⟩ else none

/-- The name has the role and no other. -/
def hasRole (c : Catalogue) (name : String) : Role → Bool
  | .function => c.isFunctionOnly name
  | .command => c.isCommandOnly name
  | .both => c.isBoth name

/-- What the catalogue answers is what the registrations say, and nothing else. -/
structure Knows (c : Catalogue) (registrations : List Registration) : Prop where
  isFunction : ∀ name, c.isFunction name = true ↔ .function name ∈ registrations
  isCommand : ∀ name, c.isCommand name = true ↔ .command name ∈ registrations
  symbols : ∀ name, name ∈ c.symbols ↔ ∃ r ∈ registrations, name = r.name
  size : c.size = {name | ∃ r ∈ registrations, name = r.name}.ncard
  /-- Every name that is stored has one of the three roles, and no other name has any. -/
  role : ∀ name, name ∈ c.symbols ↔ ∃! role, c.hasRole name role = true
  functions : ∀ name, name ∈ c.functions ↔ .function name ∈ registrations
  commands : ∀ name, name ∈ c.commands ↔ .command name ∈ registrations
  functionsMatching : ∀ pattern name, name ∈ c.functionsMatching pattern ↔
    .function name ∈ registrations ∧ (pattern = "" ∨ Fits pattern name)
  commandsMatching : ∀ pattern name, name ∈ c.commandsMatching pattern ↔
    .command name ∈ registrations ∧ (pattern = "" ∨ Fits pattern name)
  /-- A name of which nothing has been said has the kind that it has in the language. -/
  kindOf : ∀ name, c.kindOf name =
    if .function name ∈ registrations then
      if .command name ∈ registrations then .both else .function
    else if .command name ∈ registrations then .command
    else empty.kindOf name

variable {registrations : List Registration} {name : String}

/-! ## One registration -/

theorem mem_functions_register (c : Catalogue) (r : Registration) (name : String) :
    name ∈ (c.register r).functions ↔ r = .function name ∨ name ∈ c.functions := by
  unfold register
  cases r <;> simp [addFunction, addCommand, eq_comm]

theorem mem_commands_register (c : Catalogue) (r : Registration) (name : String) :
    name ∈ (c.register r).commands ↔ r = .command name ∨ name ∈ c.commands := by
  unfold register
  cases r <;> simp [addFunction, addCommand, eq_comm]

theorem mem_symbols_register (c : Catalogue) (r : Registration) (name : String) :
    name ∈ (c.register r).symbols ↔ name = r.name ∨ name ∈ c.symbols := by
  unfold symbols register
  cases r with
  | function registered => simp [addFunction, Registration.name, or_assoc]
  | command registered => simp [addCommand, Registration.name, or_left_comm]

theorem isFunction_register (c : Catalogue) (r : Registration) (name : String) :
    (c.register r).isFunction name = (decide (r = .function name) || c.isFunction name) := by
  unfold isFunction
  rw [← Bool.decide_or]
  exact decide_eq_decide.mpr (mem_functions_register c r name)

theorem isCommand_register (c : Catalogue) (r : Registration) (name : String) :
    (c.register r).isCommand name = (decide (r = .command name) || c.isCommand name) := by
  unfold isCommand
  rw [← Bool.decide_or]
  exact decide_eq_decide.mpr (mem_commands_register c r name)

/-- A name that is not stored has no flags. -/
theorem getD_stored? (c : Catalogue) (name : String) :
    (c.stored? name).getD {} = ⟨c.isFunction name, c.isCommand name⟩ := by
  unfold stored?
  by_cases h : name ∈ c.symbols
  · rw [if_pos h, Option.getD_some]
  · rw [if_neg h, Option.getD_none]
    rw [symbols, NameSet.mem_union, not_or] at h
    unfold isFunction isCommand
    rw [decide_eq_false h.1, decide_eq_false h.2]

/-- **A registration sets one flag of its name**, which is stored without flags first if it is new,
and leaves all other names as they are. -/
theorem stored?_register (c : Catalogue) (r : Registration) (name : String) :
    (c.register r).stored? name =
      if name = r.name then some (((c.stored? name).getD {}).set r) else c.stored? name := by
  by_cases h : name = r.name
  · rw [if_pos h, getD_stored?, stored?, if_pos ((mem_symbols_register c r name).mpr (Or.inl h)),
      isFunction_register, isCommand_register]
    subst h
    cases r <;> simp [Registration.name, Flags.set]
  · -- Nothing has been said of the name, so neither set has it if it had not before.
    rw [if_neg h]
    have hfunction : r ≠ .function name := by
      rintro rfl
      exact h rfl
    have hcommand : r ≠ .command name := by
      rintro rfl
      exact h rfl
    unfold stored?
    simp only [mem_symbols_register, isFunction_register, isCommand_register, h, hfunction,
      hcommand, decide_false, Bool.false_or, false_or]

/-! ## Any number of registrations -/

theorem mem_functions_ofRegistrations :
    name ∈ (ofRegistrations registrations).functions ↔ .function name ∈ registrations := by
  unfold ofRegistrations
  rw [mem_foldl functions mem_functions_register]
  simp [empty]

theorem mem_commands_ofRegistrations :
    name ∈ (ofRegistrations registrations).commands ↔ .command name ∈ registrations := by
  unfold ofRegistrations
  rw [mem_foldl commands mem_commands_register]
  simp [empty]

theorem mem_symbols_ofRegistrations :
    name ∈ (ofRegistrations registrations).symbols ↔ ∃ r ∈ registrations, name = r.name := by
  unfold ofRegistrations
  rw [mem_foldl symbols mem_symbols_register]
  simp [symbols, empty]

theorem isFunction_ofRegistrations :
    (ofRegistrations registrations).isFunction name = true ↔ .function name ∈ registrations := by
  rw [isFunction, decide_eq_true_iff, mem_functions_ofRegistrations]

theorem isCommand_ofRegistrations :
    (ofRegistrations registrations).isCommand name = true ↔ .command name ∈ registrations := by
  rw [isCommand, decide_eq_true_iff, mem_commands_ofRegistrations]

theorem eq_of_mem_iff {c d : Catalogue}
    (hfunctions : ∀ name, name ∈ c.functions ↔ name ∈ d.functions)
    (hcommands : ∀ name, name ∈ c.commands ↔ name ∈ d.commands) : c = d := by
  cases c with | mk functions commands =>
  cases d with | mk functions' commands' =>
  have hfunctions : functions = functions' := NameSet.ext hfunctions
  have hcommands : commands = commands' := NameSet.ext hcommands
  rw [hfunctions, hcommands]

theorem size_ofRegistrations :
    (ofRegistrations registrations).size = {name | ∃ r ∈ registrations, name = r.name}.ncard := by
  simp only [size, NameSet.size_eq_ncard, mem_symbols_ofRegistrations]

/-- **Catalogues are equal exactly if the same has been said**, in whatever order and however
often. -/
theorem ofRegistrations_eq_iff {more : List Registration} :
    ofRegistrations more = ofRegistrations registrations ↔
      ∀ r, r ∈ more ↔ r ∈ registrations := by
  constructor
  · intro h r
    cases r with
    | function name => rw [← mem_functions_ofRegistrations, h, mem_functions_ofRegistrations]
    | command name => rw [← mem_commands_ofRegistrations, h, mem_commands_ofRegistrations]
  · intro h
    refine eq_of_mem_iff (fun name => ?_) fun name => ?_
    · rw [mem_functions_ofRegistrations, h, mem_functions_ofRegistrations]
    · rw [mem_commands_ofRegistrations, h, mem_commands_ofRegistrations]

example :
    ofRegistrations [.function "SUM", .command "PLOT", .command "SUM", .function "SUM"] =
      ofRegistrations [.command "SUM", .function "SUM", .command "PLOT"] := by decide

/-! ## Roles -/

theorem hasRole_iff {c : Catalogue} {role : Role} :
    c.hasRole name role = true ↔
      (name ∈ c.functions ↔ role ≠ .command) ∧ (name ∈ c.commands ↔ role ≠ .function) := by
  unfold hasRole
  cases role <;> simp [isFunctionOnly, isCommandOnly, isBoth, isFunction, isCommand, and_comm]

theorem hasRole_unique {c : Catalogue} {role other : Role} (h : c.hasRole name role = true)
    (hother : c.hasRole name other = true) : other = role := by
  obtain ⟨hfunction, hcommand⟩ := hasRole_iff.mp h
  rw [hasRole_iff, hfunction, hcommand] at hother
  cases role <;> cases other <;> simp_all

/-- **The names of a catalogue have one role each**, and no other name has one. -/
theorem existsUnique_role_iff {c : Catalogue} :
    (∃! role, c.hasRole name role = true) ↔ name ∈ c.symbols := by
  rw [symbols, NameSet.mem_union]
  constructor
  · rintro ⟨role, hrole, -⟩
    obtain ⟨hfunction, hcommand⟩ := hasRole_iff.mp hrole
    by_cases hrole : role = .command
    · exact Or.inr (hcommand.mpr (by simp [hrole]))
    · exact Or.inl (hfunction.mpr hrole)
  · intro h
    obtain ⟨role, hrole⟩ : ∃ role, c.hasRole name role = true := by
      by_cases hfunction : name ∈ c.functions
      · by_cases hcommand : name ∈ c.commands
        · exact ⟨.both, hasRole_iff.mpr (by simp [hfunction, hcommand])⟩
        · exact ⟨.function, hasRole_iff.mpr (by simp [hfunction, hcommand])⟩
      · have hcommand := h.resolve_left hfunction
        exact ⟨.command, hasRole_iff.mpr (by simp [hfunction, hcommand])⟩
    exact ⟨role, hrole, fun _ => hasRole_unique hrole⟩

/-! ## Answers -/

theorem kindOf_ofRegistrations :
    (ofRegistrations registrations).kindOf name =
      if .function name ∈ registrations then
        if .command name ∈ registrations then .both else .function
      else if .command name ∈ registrations then .command
      else empty.kindOf name := by
  simp only [← mem_functions_ofRegistrations, ← mem_commands_ofRegistrations]
  by_cases hfunction : name ∈ (ofRegistrations registrations).functions
  · rw [if_pos hfunction]
    by_cases hcommand : name ∈ (ofRegistrations registrations).commands
    · rw [if_pos hcommand, kindOf_of_both hfunction hcommand]
    · rw [if_neg hcommand, kindOf_of_functionOnly hfunction hcommand]
  · rw [if_neg hfunction]
    by_cases hcommand : name ∈ (ofRegistrations registrations).commands
    · rw [if_pos hcommand, kindOf_of_commandOnly hfunction hcommand]
    · rw [if_neg hcommand]
      apply kindOf_congr
      · simp [isFunction, hfunction, empty]
      · simp [isCommand, hcommand, empty]

/-- **A catalogue knows its registrations.** -/
theorem knows_ofRegistrations (registrations : List Registration) :
    (ofRegistrations registrations).Knows registrations where
  isFunction _ := isFunction_ofRegistrations
  isCommand _ := isCommand_ofRegistrations
  symbols _ := mem_symbols_ofRegistrations
  size := size_ofRegistrations
  role _ := existsUnique_role_iff.symm
  functions _ := mem_functions_ofRegistrations
  commands _ := mem_commands_ofRegistrations
  functionsMatching _ _ := by
    rw [functionsMatching, mem_matching_iff, mem_functions_ofRegistrations]
  commandsMatching _ _ := by
    rw [commandsMatching, mem_matching_iff, mem_commands_ofRegistrations]
  kindOf _ := kindOf_ofRegistrations

/-- **A catalogue is what has been said.** After any registrations the catalogue knows them: its
names are those of which something has been said, each with one of the three roles, and what it
answers depends on which things have been said alone. One more registration sets one flag of one
name. Two catalogues are equal exactly if the same has been said, in whatever order and however
often. -/
theorem ofRegistrations_contents (registrations : List Registration) :
    (ofRegistrations registrations).Knows registrations ∧
    (∀ r name, (ofRegistrations (registrations ++ [r])).stored? name =
      if name = r.name then
        some ((((ofRegistrations registrations).stored? name).getD {}).set r)
      else (ofRegistrations registrations).stored? name) ∧
    ∀ more, ofRegistrations more = ofRegistrations registrations ↔
      ∀ r, r ∈ more ↔ r ∈ registrations := by
  refine ⟨knows_ofRegistrations registrations, fun r name => ?_, fun _ => ofRegistrations_eq_iff⟩
  rw [← stored?_register, ofRegistrations, ofRegistrations, List.foldl_append, List.foldl_cons,
    List.foldl_nil]

end LayoutLex.Catalogue
