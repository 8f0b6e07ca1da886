import LayoutLex.Proofs.Decoding
import LayoutLex.Value
import Mathlib.Tactic.ByContra

/-!
# Modes are sound at every depth

A vector or matrix keeps the mode that was found for its elements when it was built. It was found
one level down only: of its elements, those that have a mode must have the same, and that of an
element that is a vector or matrix is the one it keeps. Elements that were built in this way keep
what is true of all that is reached through any nesting of them (`atoms`), and so does what is built
of them.

* `Shares` says of a mode that all atoms have it, and that there is none exactly if there is no
  atom. A value whose atoms share the mode it keeps is `Uniform`.
* `FirstClash` are the modes of the first atom and of the first one that differs from it.
* `Joined` is what is true of atoms when a mode has been looked for: they share the one found, or
  the fault is that of their first clash.
* `Built` are the values that the constructors give, from values so built.

Results:
* `joined_joinMode`, `joined_foldlM`: what one element keeps, and any number of them.
* `uniform_of_built`: what the constructors give is uniform.
* `vectorOf_eq_error_iff`: when a vector of uniform elements is refused, and with which modes.
* `modes_at_every_depth`: all of this together.
-/

namespace LayoutLex

namespace Value

/-! ## Atoms -/

mutual

/-- What a vector or matrix is made of, from left to right: all that is reached through any nesting
of vectors and matrices and is neither. -/
def atoms : Value → List Value
  | vector ⟨vs, _⟩ => atomsOf vs
  | matrix _ _ ⟨vs, _⟩ => atomsOf vs
  | v => [v]

/-- The atoms of the elements. -/
def atomsOf : List Value → List Value
  | [] => []
  | v :: vs => atoms v ++ atomsOf vs

end

/-- The value is a vector or a matrix. -/
def isArray : Value → Bool
  | vector _ | matrix .. => true
  | _ => false

theorem atoms_of_not_isArray {v : Value} (h : v.isArray = false) : v.atoms = [v] := by
  cases v with
  | vector contents => cases h
  | matrix rows columns contents => cases h
  | _ => rfl

/-- Only vectors and matrices can be without a mode. -/
theorem mode?_ne_none_of_not_isArray {v : Value} (h : v.isArray = false) : v.mode? ≠ none := by
  cases v with
  | vector contents => cases h
  | matrix rows columns contents => cases h
  | integer n =>
    have hkind : (integer n).mode? = (integer n).kind.mode? := rfl
    rw [hkind, kind]
    by_cases hshort : leastShort ≤ n.toInt ∧ n.toInt ≤ greatestShort
    · rw [if_pos hshort]
      exact Option.some_ne_none _
    · rw [if_neg hshort]
      exact Option.some_ne_none _
  | _ => exact Option.some_ne_none _

/-! ## Atoms that share a mode -/

/-- All the atoms have the mode, and there is none exactly if there is no atom. -/
structure Shares (atoms : List Value) (mode? : Option Mode) : Prop where
  eq_none_iff : mode? = none ↔ atoms = []
  mode_eq : ∀ atom ∈ atoms, atom.mode? = mode?

/-- The atoms of the value share the mode that it has. -/
def Uniform (v : Value) : Prop :=
  Shares v.atoms v.mode?

variable {v : Value} {vs atoms others : List Value} {mode? : Option Mode}
variable {expected received : Mode}

theorem shares_nil : Shares [] none :=
  ⟨iff_of_true rfl rfl, List.forall_mem_nil _⟩

theorem uniform_of_not_isArray (h : v.isArray = false) : v.Uniform := by
  unfold Uniform
  rw [atoms_of_not_isArray h]
  refine ⟨iff_of_false (mode?_ne_none_of_not_isArray h) (List.cons_ne_nil _ _), ?_⟩
  intro atom hatom
  rw [List.mem_singleton.mp hatom]

/-- Atoms that share a mode with others make it the mode of all. -/
theorem Shares.append {mode : Mode} (h : Shares atoms (some mode))
    (hothers : Shares others (some mode)) : Shares (atoms ++ others) (some mode) := by
  have hne : atoms ≠ [] := fun hnil => Option.some_ne_none mode (h.eq_none_iff.mpr hnil)
  refine ⟨iff_of_false (Option.some_ne_none mode) ?_, ?_⟩
  · exact List.append_ne_nil_of_left_ne_nil hne others
  · intro atom hatom
    rcases List.mem_append.mp hatom with hatom | hatom
    · exact h.mode_eq atom hatom
    · exact hothers.mode_eq atom hatom

/-- Where a mode is shared there is a first atom, and it has the mode. -/
theorem Shares.exists_cons {mode : Mode} (h : Shares atoms (some mode)) :
    ∃ first rest, atoms = first :: rest ∧ first.mode? = some mode := by
  cases atoms with
  | nil => exact absurd (h.eq_none_iff.mpr rfl) (Option.some_ne_none mode)
  | cons first rest => exact ⟨first, rest, rfl, h.mode_eq first List.mem_cons_self⟩

/-! ## Clashes -/

/-- The modes of the first atom and of the first atom that has another one. -/
def FirstClash (atoms : List Value) (expected received : Mode) : Prop :=
  ∃ first other, atoms.head? = some first ∧ atoms.find? (·.mode? ≠ first.mode?) = some other ∧
    first.mode? = some expected ∧ other.mode? = some received

/-- What comes after a clash makes no difference to it. -/
theorem FirstClash.append (h : FirstClash atoms expected received) (others : List Value) :
    FirstClash (atoms ++ others) expected received := by
  obtain ⟨first, other, hfirst, hother, hexpected, hreceived⟩ := h
  refine ⟨first, other, ?_, ?_, hexpected, hreceived⟩
  · rw [List.head?_append, hfirst, Option.some_or]
  · rw [List.find?_append, hother, Option.some_or]

/-- Atoms with another mode clash with those before them. -/
theorem firstClash_append (h : Shares atoms (some expected))
    (hothers : Shares others (some received)) (hne : received ≠ expected) :
    FirstClash (atoms ++ others) expected received := by
  obtain ⟨first, rest, rfl, hfirst⟩ := h.exists_cons
  obtain ⟨other, more, rfl, hother⟩ := hothers.exists_cons
  refine ⟨first, other, rfl, ?_, hfirst, hother⟩
  have hsame : (first :: rest).find? (·.mode? ≠ first.mode?) = none := by
    rw [List.find?_eq_none]
    intro atom hatom
    simp [h.mode_eq atom hatom, hfirst]
  have hdiffer : other.mode? ≠ first.mode? := by
    rw [hfirst, hother]
    exact fun h => hne (Option.some.inj h)
  rw [List.find?_append, hsame, Option.none_or, List.find?_cons_of_pos]
  exact decide_eq_true hdiffer

/-- The first clash is one of two atoms. -/
theorem FirstClash.exists_ne (h : FirstClash atoms expected received) :
    ∃ a ∈ atoms, ∃ b ∈ atoms, a.mode? ≠ b.mode? := by
  obtain ⟨first, other, hfirst, hother, -, -⟩ := h
  have hdiffer := List.find?_some hother
  exact ⟨other, List.mem_of_find?_eq_some hother, first, List.mem_of_head? hfirst,
    of_decide_eq_true hdiffer⟩

theorem FirstClash.unique (h : FirstClash atoms expected received) {expected' received' : Mode}
    (h' : FirstClash atoms expected' received') : expected = expected' ∧ received = received' := by
  obtain ⟨first, other, hfirst, hother, hexpected, hreceived⟩ := h
  obtain ⟨first', other', hfirst', hother', hexpected', hreceived'⟩ := h'
  obtain rfl : first = first' := Option.some.inj (hfirst.symm.trans hfirst')
  obtain rfl : other = other' := Option.some.inj (hother.symm.trans hother')
  exact ⟨Option.some.inj (hexpected.symm.trans hexpected'),
    Option.some.inj (hreceived.symm.trans hreceived')⟩

/-- Atoms that share a mode do not differ. -/
theorem Shares.not_exists_ne (h : Shares atoms mode?) :
    ¬ ∃ a ∈ atoms, ∃ b ∈ atoms, a.mode? ≠ b.mode? := by
  rintro ⟨a, ha, b, hb, hdiffer⟩
  exact hdiffer ((h.mode_eq a ha).trans (h.mode_eq b hb).symm)

/-! ## The shared mode -/

/-- The fault of elements with two modes. -/
def clashFault (expected received : Mode) : Fault :=
  ⟨.mixedModes expected.code received.code, .nowhere⟩

/-- What has been found for the atoms: the mode they share, or the fault of their first clash. -/
def Joined (atoms : List Value) : Except Fault (Option Mode) → Prop
  | .ok mode? => Shares atoms mode?
  | .error fault => ∃ expected received, FirstClash atoms expected received ∧
      fault = clashFault expected received

/-- **One more element**: its atoms have what it keeps, so it is enough to look at that. -/
theorem joined_joinMode (h : Shares atoms mode?) (hv : v.Uniform) :
    Joined (atoms ++ v.atoms) (joinMode mode? v) := by
  unfold Uniform at hv
  unfold joinMode
  cases hmode : v.mode? with
  | none =>
    rw [hv.eq_none_iff.mp hmode, List.append_nil]
    exact h
  | some received =>
    rw [hmode] at hv
    cases mode? with
    | none =>
      rw [h.eq_none_iff.mp rfl, List.nil_append]
      exact hv
    | some expected =>
      dsimp only
      by_cases hsame : received = expected
      · rw [if_pos hsame]
        exact h.append (hsame ▸ hv)
      · rw [if_neg hsame]
        exact ⟨expected, received, firstClash_append h hv hsame, rfl⟩

/-- **Any number of elements**, by induction on them: the atoms seen so far share the mode found so
far, and a clash stays the first one whatever elements follow. -/
theorem joined_foldlM (h : Shares atoms mode?) (hvs : ∀ v ∈ vs, v.Uniform) :
    Joined (atoms ++ atomsOf vs) (vs.foldlM joinMode mode?) := by
  induction vs generalizing atoms mode? with
  | nil =>
    rw [atomsOf, List.append_nil]
    exact h
  | cons v vs ih =>
    obtain ⟨hv, hvs⟩ := List.forall_mem_cons.mp hvs
    have hjoined : Joined (atoms ++ v.atoms) (joinMode mode? v) := joined_joinMode h hv
    rw [atomsOf, ← List.append_assoc, List.foldlM_cons]
    cases hfound : joinMode mode? v with
    | ok found =>
      rw [hfound] at hjoined
      exact ih hjoined hvs
    | error fault =>
      rw [hfound] at hjoined
      obtain ⟨expected, received, hclash, hfault⟩ := hjoined
      exact ⟨expected, received, hclash.append _, hfault⟩

theorem joined_sharedMode (hvs : ∀ v ∈ vs, v.Uniform) : Joined (atomsOf vs) (sharedMode vs) :=
  joined_foldlM shares_nil hvs

/-- **When no mode is found**, it is for the first two modes among the atoms that differ. -/
theorem sharedMode_eq_error_iff (hvs : ∀ v ∈ vs, v.Uniform) {fault : Fault} :
    sharedMode vs = .error fault ↔ ∃ expected received,
      FirstClash (atomsOf vs) expected received ∧ fault = clashFault expected received := by
  have hjoined := joined_sharedMode hvs
  cases hfound : sharedMode vs with
  | ok found =>
    rw [hfound] at hjoined
    refine iff_of_false (nofun) ?_
    rintro ⟨expected, received, hclash, -⟩
    exact Shares.not_exists_ne hjoined hclash.exists_ne
  | error found =>
    rw [hfound] at hjoined
    obtain ⟨expected, received, hclash, rfl⟩ := hjoined
    constructor
    · intro h
      cases h
      exact ⟨expected, received, hclash, rfl⟩
    · rintro ⟨expected', received', hclash', rfl⟩
      obtain ⟨rfl, rfl⟩ := hclash.unique hclash'
      rfl

/-- No mode is found exactly if two atoms have different modes. -/
theorem exists_sharedMode_eq_error_iff (hvs : ∀ v ∈ vs, v.Uniform) :
    (∃ fault, sharedMode vs = .error fault) ↔
      ∃ a ∈ atomsOf vs, ∃ b ∈ atomsOf vs, a.mode? ≠ b.mode? := by
  have hjoined := joined_sharedMode hvs
  cases hfound : sharedMode vs with
  | ok found =>
    rw [hfound] at hjoined
    exact iff_of_false (by simp) (Shares.not_exists_ne hjoined)
  | error found =>
    rw [hfound] at hjoined
    obtain ⟨expected, received, hclash, -⟩ := hjoined
    exact iff_of_true ⟨found, rfl⟩ hclash.exists_ne

theorem exists_clashFault_of_joinMode {fault : Fault} (h : joinMode mode? v = .error fault) :
    ∃ expected received, fault = clashFault expected received := by
  unfold joinMode at h
  split at h
  · cases h
  · cases h
  · next received expected _ =>
    by_cases hsame : received = expected
    · rw [if_pos hsame] at h
      cases h
    · rw [if_neg hsame] at h
      cases h
      exact ⟨expected, received, rfl⟩

/-- Of any elements, uniform or not, the fault names two modes. -/
theorem exists_clashFault_of_foldlM {fault : Fault}
    (h : vs.foldlM joinMode mode? = .error fault) :
    ∃ expected received, fault = clashFault expected received := by
  induction vs generalizing mode? with
  | nil => cases h
  | cons v vs ih =>
    rw [List.foldlM_cons] at h
    cases hfound : joinMode mode? v with
    | ok found =>
      rw [hfound] at h
      exact ih h
    | error found =>
      rw [hfound] at h
      cases h
      exact exists_clashFault_of_joinMode hfound

/-- Elements with the mode that is shared already change nothing. -/
theorem foldlM_joinMode_of_mode {mode : Mode} (h : ∀ v ∈ vs, v.mode? = some mode) :
    vs.foldlM joinMode (some mode) = .ok (some mode) := by
  induction vs with
  | nil => rfl
  | cons v vs ih =>
    obtain ⟨hv, hvs⟩ := List.forall_mem_cons.mp h
    have hstep : joinMode (some mode) v = .ok (some mode) := by simp [joinMode, hv]
    rw [List.foldlM_cons, hstep]
    exact ih hvs

/-- Elements that all have one mode share it. -/
theorem sharedMode_of_mode (mode : Mode) (h : ∀ v ∈ vs, v.mode? = some mode) :
    sharedMode vs = .ok (if vs.isEmpty then none else some mode) := by
  cases vs with
  | nil => rfl
  | cons v vs =>
    obtain ⟨hv, hvs⟩ := List.forall_mem_cons.mp h
    have hfirst : joinMode none v = .ok (some mode) := by simp [joinMode, hv]
    rw [sharedMode, List.foldlM_cons, hfirst]
    exact foldlM_joinMode_of_mode hvs

/-! ## Building -/

theorem vectorOf_eq (vs : List Value) :
    vectorOf vs = (sharedMode vs).map fun mode? => vector ⟨vs, mode?⟩ := by
  unfold vectorOf contentsOf
  cases sharedMode vs with
  | ok found => rfl
  | error fault => rfl

/-- The shape is looked at before the modes. -/
theorem matrixOf_of_shape_ne {rows columns : Nat} (h : rows * columns ≠ vs.length) :
    matrixOf rows columns vs = .error ⟨.matrixShape rows columns vs.length, .nowhere⟩ := by
  unfold matrixOf
  rw [if_pos h]
  rfl

theorem matrixOf_eq {rows columns : Nat} (h : rows * columns = vs.length) :
    matrixOf rows columns vs =
      (sharedMode vs).map fun mode? => matrix rows columns ⟨vs, mode?⟩ := by
  unfold matrixOf contentsOf
  rw [if_neg (not_not_intro h)]
  cases sharedMode vs with
  | ok found => rfl
  | error fault => rfl

theorem map_eq_ok_iff {α β ε : Type} {f : α → β} {e : Except ε α} {b : β} :
    e.map f = .ok b ↔ ∃ a, e = .ok a ∧ f a = b := by
  cases e with
  | ok a => simp [Except.map]
  | error fault => simp [Except.map]

theorem map_eq_error_iff {α β ε : Type} {f : α → β} {e : Except ε α} {fault : ε} :
    e.map f = .error fault ↔ e = .error fault := by
  cases e with
  | ok a => simp [Except.map]
  | error found => simp [Except.map]

theorem vectorOf_eq_ok_iff :
    vectorOf vs = .ok v ↔ ∃ mode?, sharedMode vs = .ok mode? ∧ vector ⟨vs, mode?⟩ = v := by
  rw [vectorOf_eq, map_eq_ok_iff]

theorem matrixOf_eq_ok_iff {rows columns : Nat} :
    matrixOf rows columns vs = .ok v ↔ rows * columns = vs.length ∧
      ∃ mode?, sharedMode vs = .ok mode? ∧ matrix rows columns ⟨vs, mode?⟩ = v := by
  by_cases hshape : rows * columns = vs.length
  · rw [matrixOf_eq hshape, map_eq_ok_iff, and_iff_right hshape]
  · rw [matrixOf_of_shape_ne hshape]
    exact iff_of_false (nofun) fun h => hshape h.1

/-- Once its shape is right a matrix is refused like a vector, and otherwise keeps what the vector
keeps. -/
theorem matrixOf_eq_map_vectorOf {rows columns : Nat} (h : rows * columns = vs.length) :
    matrixOf rows columns vs =
      (vectorOf vs).map fun v => matrix rows columns ⟨v.elements, v.mode?⟩ := by
  rw [matrixOf_eq h, vectorOf_eq]
  cases sharedMode vs with
  | ok found => rfl
  | error fault => rfl

/-- **When a vector is refused**, it is for the first two modes among its atoms that differ. -/
theorem vectorOf_eq_error_iff (hvs : ∀ v ∈ vs, v.Uniform) {fault : Fault} :
    vectorOf vs = .error fault ↔ ∃ expected received, FirstClash (atomsOf vs) expected received ∧
      fault = ⟨.mixedModes expected.code received.code, .nowhere⟩ := by
  rw [vectorOf_eq, map_eq_error_iff]
  exact sharedMode_eq_error_iff hvs

/-- A vector is refused exactly if two of its atoms have different modes. -/
theorem exists_vectorOf_eq_error_iff (hvs : ∀ v ∈ vs, v.Uniform) :
    (∃ fault, vectorOf vs = .error fault) ↔
      ∃ a ∈ atomsOf vs, ∃ b ∈ atomsOf vs, a.mode? ≠ b.mode? := by
  simp only [vectorOf_eq, map_eq_error_iff]
  exact exists_sharedMode_eq_error_iff hvs

/-- The values that the constructors give, from values so built. -/
inductive Built : Value → Prop
  | scalar {v : Value} (h : v.isScalar = true) : Built v
  | null : Built null
  | vector {vs : List Value} {v : Value} (hvs : ∀ e ∈ vs, Built e) (h : vectorOf vs = .ok v) :
      Built v
  | matrix {rows columns : Nat} {vs : List Value} {v : Value} (hvs : ∀ e ∈ vs, Built e)
      (h : matrixOf rows columns vs = .ok v) : Built v
  | list {vs : List Value} (hvs : ∀ e ∈ vs, Built e) : Built (list vs)
  | text (cs : List Char) : Built (ofText cs)

/-- **The mode that a text is given is the one that its bytes share.** -/
theorem vectorOf_characters (text : List Char) :
    vectorOf ((Text.encode text).map character) = .ok (ofText text) := by
  have hmode : ∀ v ∈ (Text.encode text).map character, v.mode? = some .char := by
    intro v hv
    obtain ⟨code, -, rfl⟩ := List.mem_map.mp hv
    rfl
  have hempty : ((Text.encode text).map character).isEmpty = text.isEmpty := by
    rw [List.isEmpty_map, Bool.eq_iff_iff, List.isEmpty_iff, List.isEmpty_iff]
    refine ⟨Text.eq_nil_of_encode_eq_nil, ?_⟩
    rintro rfl
    rfl
  rw [vectorOf_eq, sharedMode_of_mode .char hmode, hempty]
  rfl

theorem not_isArray_of_isScalar (h : v.isScalar = true) : v.isArray = false := by
  cases v with
  | vector contents => cases h
  | matrix rows columns contents => cases h
  | _ => rfl

/-- What uniform elements share is kept by what is built of them. -/
theorem shares_of_sharedMode (hvs : ∀ v ∈ vs, v.Uniform) (h : sharedMode vs = .ok mode?) :
    Shares (atomsOf vs) mode? := by
  have hjoined := joined_sharedMode hvs
  rwa [h] at hjoined

/-- **What the constructors give is uniform.** -/
theorem uniform_of_built (h : v.Built) : v.Uniform := by
  induction h with
  | scalar h => exact uniform_of_not_isArray (not_isArray_of_isScalar h)
  | null => exact uniform_of_not_isArray rfl
  | vector hvs h ih =>
    obtain ⟨mode?, hshared, rfl⟩ := vectorOf_eq_ok_iff.mp h
    exact shares_of_sharedMode ih hshared
  | matrix hvs h ih =>
    obtain ⟨-, mode?, hshared, rfl⟩ := matrixOf_eq_ok_iff.mp h
    exact shares_of_sharedMode ih hshared
  | list hvs ih => exact uniform_of_not_isArray rfl
  | text cs =>
    -- The mode is set by hand; that it is the right one is what the vector of the bytes shows.
    obtain ⟨mode?, hshared, htext⟩ := vectorOf_eq_ok_iff.mp (vectorOf_characters cs)
    rw [← htext]
    refine shares_of_sharedMode (fun v hv => ?_) hshared
    obtain ⟨code, -, rfl⟩ := List.mem_map.mp hv
    exact uniform_of_not_isArray rfl

/-- **Modes are sound at every depth.** The mode that a value keeps, if the constructors gave it, is
that of all its atoms, and it keeps none exactly if it has no atom. A vector of such elements is
refused exactly if two of their atoms have different modes, and the fault names the modes of the
first atom and of the first one that differs; otherwise it holds the elements. Once its shape is
right a matrix is refused like a vector, and otherwise keeps the same. A text is the vector of its
bytes, with the mode that is found for them. -/
theorem modes_at_every_depth :
    (∀ v : Value, v.Built →
      (∀ atom ∈ v.atoms, ∃ mode, atom.mode? = some mode ∧ v.mode? = some mode) ∧
        (v.mode? = none ↔ v.atoms = [])) ∧
    (∀ vs : List Value, (∀ v ∈ vs, v.Built) →
      ((∃ fault, vectorOf vs = .error fault) ↔
        ∃ a ∈ atomsOf vs, ∃ b ∈ atomsOf vs, a.mode? ≠ b.mode?) ∧
      (∀ fault, vectorOf vs = .error fault ↔ ∃ expected received,
        FirstClash (atomsOf vs) expected received ∧
          fault = ⟨.mixedModes expected.code received.code, .nowhere⟩) ∧
      (∀ v, vectorOf vs = .ok v → v = vector ⟨vs, v.mode?⟩) ∧
      ∀ rows columns, rows * columns = vs.length →
        matrixOf rows columns vs =
          (vectorOf vs).map fun v => matrix rows columns ⟨v.elements, v.mode?⟩) ∧
    ∀ text, vectorOf ((Text.encode text).map character) = .ok (ofText text) := by
  refine ⟨fun v hbuilt => ?_, fun vs hvs => ?_, vectorOf_characters⟩
  · have huniform : Shares v.atoms v.mode? := uniform_of_built hbuilt
    refine ⟨fun atom hatom => ?_, huniform.eq_none_iff⟩
    have hne : v.mode? ≠ none := fun hnone => by
      rw [huniform.eq_none_iff.mp hnone] at hatom
      exact List.not_mem_nil hatom
    obtain ⟨mode, hmode⟩ := Option.ne_none_iff_exists'.mp hne
    exact ⟨mode, (huniform.mode_eq atom hatom).trans hmode, hmode⟩
  · have huniform : ∀ v ∈ vs, v.Uniform := fun v hv => uniform_of_built (hvs v hv)
    refine ⟨exists_vectorOf_eq_error_iff huniform, fun _ => vectorOf_eq_error_iff huniform,
      fun v h => ?_, fun rows columns => matrixOf_eq_map_vectorOf⟩
    obtain ⟨mode?, -, rfl⟩ := vectorOf_eq_ok_iff.mp h
    rfl

/-- One above the greatest short integer the mode changes, however deep the integer stands. -/
theorem modes_at_every_depth_boundary :
    let empty := vector ⟨[], none⟩
    let short := matrix 1 2 ⟨[integer 32767, integer (-32768)], some .integer⟩
    let long := vector ⟨[empty, vector ⟨[integer 32768], some .integer2⟩], some .integer2⟩
    (∀ v ∈ [empty, short, long, list [null]], v.Built) ∧
      (∃ mode, (integer 32767).mode? = some mode ∧ short.mode? = some mode) ∧
      (∃ mode, (integer 32768).mode? = some mode ∧ long.mode? = some mode) ∧
      vectorOf [empty, short, long, list [null]] = .error ⟨.mixedModes 2 7, .nowhere⟩ := by
  intro empty short long
  obtain ⟨hmode, hrefused, -⟩ := modes_at_every_depth
  have hempty : empty.Built := .vector (List.forall_mem_nil _) (rfl : vectorOf [] = _)
  have hinteger : ∀ n, (integer n).Built := fun n => .scalar rfl
  have hshort : short.Built := by
    refine .matrix ?_ (rfl : matrixOf 1 2 [integer 32767, integer (-32768)] = _)
    simp [hinteger]
  have hinner : (vector ⟨[integer 32768], some .integer2⟩).Built := by
    refine .vector ?_ (rfl : vectorOf [integer 32768] = _)
    simp [hinteger]
  have hlong : long.Built := by
    refine .vector ?_ (rfl : vectorOf [empty, vector ⟨[integer 32768], some .integer2⟩] = _)
    simp [hempty, hinner]
  have hlist : (list [null]).Built := by
    refine .list ?_
    simp [Built.null]
  have hbuilt : ∀ v ∈ [empty, short, long, list [null]], v.Built := by
    simp [hempty, hshort, hlong, hlist]
  have hclash := ((hrefused _ hbuilt).2.1 ⟨.mixedModes 2 7, .nowhere⟩).mpr
    ⟨.integer, .integer2, ⟨integer 32767, integer 32768, rfl, rfl, rfl, rfl⟩, rfl⟩
  exact ⟨hbuilt, (hmode short hshort).1 (integer 32767) List.mem_cons_self,
    (hmode long hlong).1 (integer 32768) List.mem_cons_self, hclash⟩

end Value

end LayoutLex
