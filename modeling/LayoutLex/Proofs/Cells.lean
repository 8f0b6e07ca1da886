import LayoutLex.Proofs.Modes
import Mathlib.Data.List.Basic

/-!
# The cells of a matrix

A matrix has one cell for each row and column of its shape, and its elements stand row after row.

* `Reads` says which position among the elements a cell is read from: the one whose element the
  cell holds in every matrix of the shape.
* `rowByRow` are all cells of a shape, row by row.

Results:
* `reads_iff`: the cells of the shape read `row * columns + column`, which is a position among the
  elements; what lies outside the shape reads none, even if that sum is a position.
* `existsUnique_cell`: every position is read by one cell.
* `rowByRow_eq`: row by row the cells hold the elements.
* `matrixOf_cells`: all of this, and when a matrix is refused for its shape.
-/

namespace LayoutLex.Value

/-- In every matrix of the shape, the cell (row and column) holds the element at the position. -/
def Reads (rows columns : Nat) (cell : Nat × Nat) (position : Nat) : Prop :=
  position < rows * columns ∧
    ∀ vs v, matrixOf rows columns vs = .ok v → v.cell? cell.1 cell.2 = vs[position]?

/-- The cells of the shape, row by row. -/
def rowByRow (rows columns : Nat) (v : Value) : List (Option Value) :=
  (List.range rows).flatMap fun row => (List.range columns).map (v.cell? row)

variable {rows columns row column position : Nat} {vs : List Value} {v : Value}

/-! ## Building a matrix -/

/-- What a cell holds in a matrix that is not refused. -/
theorem cell?_of_matrixOf (h : matrixOf rows columns vs = .ok v) (row column : Nat) :
    v.cell? row column =
      if row < rows ∧ column < columns then vs[row * columns + column]? else none := by
  obtain ⟨-, mode?, -, rfl⟩ := matrixOf_eq_ok_iff.mp h
  rfl

/-- **A matrix is refused for its shape exactly if the shape does not fit the elements**, whatever
their modes are. -/
theorem exists_matrixShape_iff :
    (∃ a b count place, matrixOf rows columns vs = .error ⟨.matrixShape a b count, place⟩) ↔
      rows * columns ≠ vs.length := by
  constructor
  · rintro ⟨a, b, count, place, h⟩ hshape
    rw [matrixOf_eq hshape, map_eq_error_iff] at h
    obtain ⟨expected, received, hfault⟩ := exists_clashFault_of_foldlM h
    unfold clashFault at hfault
    cases hfault
  · intro hshape
    exact ⟨_, _, _, _, matrixOf_of_shape_ne hshape⟩

/-! ## Positions -/

theorem offset_lt (hrow : row < rows) (hcolumn : column < columns) :
    row * columns + column < rows * columns := by
  calc row * columns + column < row * columns + columns := Nat.add_lt_add_left hcolumn _
    _ = (row + 1) * columns := (Nat.succ_mul row columns).symm
    _ ≤ rows * columns := Nat.mul_le_mul_right columns hrow

theorem offset_div (hcolumn : column < columns) : (row * columns + column) / columns = row := by
  rw [Nat.mul_comm, Nat.mul_add_div (Nat.zero_lt_of_lt hcolumn), Nat.div_eq_of_lt hcolumn,
    Nat.add_zero]

/-- Logical values, as many as said, of which only the one at the position is true. -/
def marks (count position : Nat) : List Value :=
  (List.range count).map fun i => logical (decide (i = position))

theorem getElem?_marks_iff {count i : Nat} :
    (marks count position)[i]? = some (logical true) ↔ i < count ∧ i = position := by
  unfold marks
  rw [List.getElem?_map]
  by_cases hi : i < count
  · simp [hi]
  · simp [hi]

theorem exists_matrixOf_marks (rows columns position : Nat) :
    ∃ v, matrixOf rows columns (marks (rows * columns) position) = .ok v := by
  refine ⟨_, matrixOf_eq_ok_iff.mpr ⟨by simp [marks], _, sharedMode_of_mode .logical ?_, rfl⟩⟩
  intro v hv
  obtain ⟨i, -, rfl⟩ := List.mem_map.mp hv
  rfl

/-- **The position that a cell reads.** Nothing outside the shape reads one. -/
theorem reads_iff :
    Reads rows columns (row, column) position ↔
      (row < rows ∧ column < columns) ∧ position = row * columns + column := by
  constructor
  · rintro ⟨hposition, hreads⟩
    -- The matrix that is true at the position only tells where the cell is read.
    obtain ⟨v, hv⟩ := exists_matrixOf_marks rows columns position
    have hcell := hreads _ _ hv
    rw [getElem?_marks_iff.mpr ⟨hposition, rfl⟩, cell?_of_matrixOf hv] at hcell
    by_cases hshape : row < rows ∧ column < columns
    · rw [if_pos hshape] at hcell
      exact ⟨hshape, (getElem?_marks_iff.mp hcell).2.symm⟩
    · rw [if_neg hshape] at hcell
      cases hcell
  · rintro ⟨hshape, rfl⟩
    refine ⟨offset_lt hshape.1 hshape.2, fun vs v h => ?_⟩
    rw [cell?_of_matrixOf h, if_pos hshape]

/-- A cell of the shape reads one position. -/
theorem existsUnique_position (hrow : row < rows) (hcolumn : column < columns) :
    ∃! position, Reads rows columns (row, column) position :=
  ⟨_, reads_iff.mpr ⟨⟨hrow, hcolumn⟩, rfl⟩, fun _ h => (reads_iff.mp h).2⟩

/-- A position says which cell reads it. -/
theorem Reads.cell_eq {cell : Nat × Nat} (h : Reads rows columns cell position) :
    cell = (position / columns, position % columns) := by
  obtain ⟨row, column⟩ := cell
  obtain ⟨⟨-, hcolumn⟩, rfl⟩ := reads_iff.mp h
  rw [offset_div hcolumn, Nat.mul_add_mod_of_lt hcolumn]

/-- **Every position is read by one cell.** -/
theorem existsUnique_cell (h : position < rows * columns) :
    ∃! cell, Reads rows columns cell position := by
  have hcolumns : 0 < columns := Nat.pos_of_mul_pos_left (Nat.zero_lt_of_lt h)
  have hrow : position / columns < rows := (Nat.div_lt_iff_lt_mul hcolumns).mpr h
  have hreads : Reads rows columns (position / columns, position % columns) position :=
    reads_iff.mpr ⟨⟨hrow, Nat.mod_lt _ hcolumns⟩, (Nat.div_add_mod' position columns).symm⟩
  exact ⟨_, hreads, fun _ hcell => hcell.cell_eq⟩

/-! ## All cells -/

/-- Counting row by row is counting. -/
theorem flatMap_map_offset {α : Type} (f : Nat → α) (rows columns : Nat) :
    ((List.range rows).flatMap fun row =>
      (List.range columns).map fun column => f (row * columns + column)) =
      (List.range (rows * columns)).map f := by
  induction rows with
  | zero => simp
  | succ rows ih =>
    rw [List.range_succ, List.flatMap_append, ih, List.flatMap_singleton, Nat.succ_mul,
      List.range_add, List.map_append, List.map_map]
    rfl

theorem isSome_cell?_iff (h : matrixOf rows columns vs = .ok v) :
    (v.cell? row column).isSome = true ↔ row < rows ∧ column < columns := by
  have hlength := (matrixOf_eq_ok_iff.mp h).1
  rw [cell?_of_matrixOf h]
  by_cases hshape : row < rows ∧ column < columns
  · have hlt := offset_lt hshape.1 hshape.2
    rw [if_pos hshape, List.getElem?_eq_getElem (hlength ▸ hlt)]
    simpa using hshape
  · simp [hshape]

/-- **Row by row the cells hold the elements.** -/
theorem rowByRow_eq (h : matrixOf rows columns vs = .ok v) :
    rowByRow rows columns v = vs.map some := by
  have hlength := (matrixOf_eq_ok_iff.mp h).1
  calc rowByRow rows columns v
      = (List.range rows).flatMap fun row =>
          (List.range columns).map fun column => vs[row * columns + column]? :=
        List.flatMap_congr fun row hrow => List.map_congr_left fun column hcolumn => by
          rw [cell?_of_matrixOf h,
            if_pos ⟨List.mem_range.mp hrow, List.mem_range.mp hcolumn⟩]
    _ = (List.range vs.length).map fun i => vs[i]? := by
        rw [flatMap_map_offset (fun i => vs[i]?), hlength]
    _ = vs.map some := by
        refine List.ext_getElem (by simp) fun i hi _ => ?_
        rw [List.length_map, List.length_range] at hi
        simp [hi]

/-- **Cells and elements are in bijection.** In a matrix that is not refused there is something in a
cell exactly if its row and column are in the shape. Each such cell reads one position among the
elements, different ones read different positions, and each position is read by one of them. Row by
row they hold the elements. A matrix is refused for its shape exactly if the shape does not have as
many cells as there are elements, whatever the modes of the elements are. -/
theorem matrixOf_cells (rows columns : Nat) (vs : List Value) :
    (∀ v, matrixOf rows columns vs = .ok v →
      (∀ row column, (v.cell? row column).isSome = true ↔ row < rows ∧ column < columns) ∧
      (∀ row column, row < rows → column < columns →
        ∃! position, Reads rows columns (row, column) position) ∧
      (∀ cell other position place, Reads rows columns cell position →
        Reads rows columns other place → cell ≠ other → position ≠ place) ∧
      (∀ position < vs.length, ∃! cell, Reads rows columns cell position) ∧
      rowByRow rows columns v = vs.map some) ∧
    ((∃ a b count place, matrixOf rows columns vs = .error ⟨.matrixShape a b count, place⟩) ↔
      rows * columns ≠ vs.length) ∧
    (rows * columns ≠ vs.length →
      matrixOf rows columns vs = .error ⟨.matrixShape rows columns vs.length, .nowhere⟩) := by
  refine ⟨fun v h => ⟨fun _ _ => isSome_cell?_iff h, fun _ _ => existsUnique_position, ?_, ?_,
    rowByRow_eq h⟩, exists_matrixShape_iff, matrixOf_of_shape_ne⟩
  · rintro cell other position place hcell hother hne rfl
    exact hne (hcell.cell_eq.trans hother.cell_eq.symm)
  · intro position hposition
    rw [← (matrixOf_eq_ok_iff.mp h).1] at hposition
    exact existsUnique_cell hposition

/-- A column past the end of its row is in no cell, though the next row goes on there; and a shape
that does not fit is refused before the modes are looked at. -/
theorem matrixOf_cells_two_rows :
    let vs := [integer 1, integer 2, integer 3, integer 4, integer 5, integer 6]
    ∃ v, matrixOf 2 3 vs = .ok v ∧ (v.cell? 0 3).isSome = false ∧
      (∃! cell, Reads 2 3 cell 3) ∧
      matrixOf 1 1 [integer 1, null] = .error ⟨.matrixShape 1 1 2, .nowhere⟩ := by
  intro vs
  obtain ⟨hcells, -⟩ := matrixOf_cells 2 3 vs
  obtain ⟨hsome, -, -, hread, -⟩ := hcells (matrix 2 3 ⟨vs, some .integer⟩) rfl
  obtain ⟨-, -, hrefused⟩ := matrixOf_cells 1 1 [integer 1, null]
  refine ⟨matrix 2 3 ⟨vs, some .integer⟩, rfl, ?_, hread 3 (by decide), hrefused (by decide)⟩
  rw [Bool.eq_false_iff, Ne, hsome]
  decide

end LayoutLex.Value
