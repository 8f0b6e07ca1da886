/-!
# Sets of names

A set of names as the list of its members in increasing order of code points, each once. The order
is part of the type, so two sets with the same members are equal (`ext`).

Results:
* `mem_insert`, `mem_union`, `mem_filter`, `mem_ofList`: what each operation does to the members.
* `ext`: a set is its members.
-/

namespace LayoutLex

/-- A set of names in increasing order. -/
structure NameSet where
  names : List String
  sorted : names.Pairwise (· < ·)
  deriving DecidableEq

namespace NameSet

instance : Membership String NameSet := ⟨fun s name => name ∈ s.names⟩

instance (name : String) (s : NameSet) : Decidable (name ∈ s) :=
  inferInstanceAs (Decidable (name ∈ s.names))

theorem mem_def {name : String} {s : NameSet} : name ∈ s ↔ name ∈ s.names := Iff.rfl

/-- The set without members. -/
def empty : NameSet := ⟨[], .nil⟩

instance : Inhabited NameSet := ⟨empty⟩

@[simp] theorem not_mem_empty (name : String) : name ∉ empty := List.not_mem_nil

/-- The number of members. -/
def size (s : NameSet) : Nat :=
  s.names.length

/-! ## Insertion -/

/-- A name at its place in an increasing list. -/
def place (name : String) : List String → List String
  | [] => [name]
  | n :: ns =>
    if name < n then name :: n :: ns
    else if name = n then n :: ns
    else n :: place name ns

theorem mem_place {name other : String} {ns : List String} :
    other ∈ place name ns ↔ other = name ∨ other ∈ ns := by
  induction ns with
  | nil => simp [place]
  | cons n ns ih =>
    unfold place
    split
    · simp
    · split
      · next h => subst h; simp
      · simp only [List.mem_cons, ih]
        exact ⟨fun h => h.elim (Or.inr ∘ Or.inl) (·.imp id Or.inr),
          fun h => h.elim (Or.inr ∘ Or.inl) (·.imp id Or.inr)⟩

theorem sorted_place {name : String} {ns : List String} (h : ns.Pairwise (· < ·)) :
    (place name ns).Pairwise (· < ·) := by
  induction ns with
  | nil => simp [place]
  | cons n ns ih =>
    obtain ⟨hn, hns⟩ := List.pairwise_cons.mp h
    unfold place
    split
    · next hlt =>
      refine List.pairwise_cons.mpr ⟨fun m hm => ?_, h⟩
      rcases List.mem_cons.mp hm with rfl | hm
      · exact hlt
      · exact String.lt_trans hlt (hn m hm)
    · split
      · exact h
      · next hge hne =>
        refine List.pairwise_cons.mpr ⟨fun m hm => ?_, ih hns⟩
        rcases mem_place.mp hm with rfl | hm
        · exact Std.lt_of_le_of_ne (String.not_lt.mp hge) (Ne.symm hne)
        · exact hn m hm

/-- The set with one more name. -/
def insert (s : NameSet) (name : String) : NameSet :=
  ⟨place name s.names, sorted_place s.sorted⟩

@[simp] theorem mem_insert {s : NameSet} {name other : String} :
    other ∈ s.insert name ↔ other = name ∨ other ∈ s :=
  mem_place

/-! ## Sets from sets -/

/-- The set with all the names. -/
def insertAll (s : NameSet) (names : List String) : NameSet :=
  names.foldl insert s

@[simp] theorem mem_insertAll {s : NameSet} {names : List String} {other : String} :
    other ∈ s.insertAll names ↔ other ∈ names ∨ other ∈ s := by
  induction names generalizing s with
  | nil => simp [insertAll]
  | cons n ns ih =>
    have h := ih (s := s.insert n)
    simp only [insertAll, List.foldl_cons] at h ⊢
    rw [h, mem_insert, List.mem_cons]
    exact ⟨fun h => h.elim (Or.inl ∘ Or.inr) (·.imp Or.inl id),
      fun h => h.elim (·.elim (Or.inr ∘ Or.inl) Or.inl) (Or.inr ∘ Or.inr)⟩

theorem insertAll_append (s : NameSet) (names more : List String) :
    s.insertAll (names ++ more) = (s.insertAll names).insertAll more :=
  List.foldl_append

/-- The set of the names in a list. -/
def ofList (names : List String) : NameSet :=
  empty.insertAll names

@[simp] theorem mem_ofList {names : List String} {other : String} :
    other ∈ ofList names ↔ other ∈ names := by
  simp [ofList]

/-- The names in either set. -/
def union (s t : NameSet) : NameSet :=
  s.insertAll t.names

@[simp] theorem mem_union {s t : NameSet} {other : String} :
    other ∈ s.union t ↔ other ∈ s ∨ other ∈ t := by
  simp [union, ← mem_def, or_comm]

/-- The names with the property. -/
def filter (p : String → Bool) (s : NameSet) : NameSet :=
  ⟨s.names.filter p, s.sorted.sublist List.filter_sublist⟩

@[simp] theorem mem_filter {p : String → Bool} {s : NameSet} {other : String} :
    other ∈ s.filter p ↔ other ∈ s ∧ p other = true :=
  List.mem_filter

/-! ## Extensionality -/

theorem names_eq_of_mem_iff {ns ms : List String} (hn : ns.Pairwise (· < ·))
    (hm : ms.Pairwise (· < ·)) (h : ∀ name, name ∈ ns ↔ name ∈ ms) : ns = ms :=
  List.Perm.eq_of_pairwise
    (fun _ _ _ _ hab hba => absurd (String.lt_trans hab hba) (String.lt_irrefl _)) hn hm
    ((List.perm_ext_iff_of_nodup (hn.imp Std.ne_of_lt) (hm.imp Std.ne_of_lt)).mpr h)

/-- A set is its members. -/
@[ext] theorem ext {s t : NameSet} (h : ∀ name, name ∈ s ↔ name ∈ t) : s = t := by
  cases s with | mk ns hn =>
  cases t with | mk ms hm =>
  have := names_eq_of_mem_iff hn hm h
  subst this
  rfl

end NameSet

end LayoutLex
