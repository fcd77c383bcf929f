import Mathlib.Data.List.Basic
import WaveNotebook.Proofs.Grid.Sound

/-!
# Grids as nested lists

A matrix can be read out as a list of its rows. The data that come of it have the dimensions of
the grid and its entries in the same order, so that a matrix that is made from them has the same
entries again.
-/

namespace WaveNotebook

namespace NumberArray

/-- A list of data of one shape has one more dimension, its length. -/
theorem commonShape_of_forall {shape : List Nat} {ds : List Datum} (hne : ds ≠ [])
    (h : ∀ d ∈ ds, shapeOf d = some shape) : commonShape ds = some (ds.length :: shape) := by
  induction ds with
  | nil => exact absurd rfl hne
  | cons d ds ih =>
    obtain ⟨hd, hds⟩ := List.forall_mem_cons.mp h
    cases ds with
    | nil =>
      rw [commonShape, hd]
      rfl
    | cons d' ds =>
      rw [commonShape, hd, ih (List.cons_ne_nil _ _) hds]
      · exact if_pos rfl
      · exact List.cons_ne_nil _ _

theorem allCells_map {β : Type} {datum : β → Datum} {cells : β → List Float}
    (h : ∀ b, cellsOf (datum b) = .ok (cells b)) (bs : List β) :
    allCells (bs.map datum) = .ok (bs.flatMap cells) := by
  induction bs with
  | nil => rfl
  | cons b bs ih =>
    rw [List.map_cons, allCells, h, ih]
    rfl

theorem rowsOf_eq (a : NumberArray) (rows cols : Nat) :
    a.rowsOf rows cols =
      (List.range rows).map fun i ↦ (a.cells.drop (i * cols)).take cols := by
  unfold rowsOf
  refine List.map_congr_left fun i _ ↦ ?_
  rw [Array.toList_extract, List.extract_eq_take_drop, Nat.add_one_mul, Nat.add_sub_cancel_left]

/-- Rows of one length can be told apart in the list of all entries. -/
theorem rowsOf_flatten {rows : List (List Float)} {cols : Nat} (shape : List Nat)
    (h : ∀ row ∈ rows, row.length = cols) :
    rowsOf ⟨shape, rows.flatten⟩ rows.length cols = rows := by
  rw [rowsOf_eq]
  dsimp only
  induction rows with
  | nil => rfl
  | cons row rows ih =>
    obtain ⟨rfl, hrows⟩ := List.forall_mem_cons.mp h
    -- behind the first row, every row starts one row length later
    have hrest : ∀ i, (row ++ rows.flatten).drop ((i + 1) * row.length) =
        rows.flatten.drop (i * row.length) := by
      intro i
      rw [Nat.add_one_mul, Nat.add_comm, List.drop_append, Nat.add_sub_cancel_left,
        List.drop_eq_nil_of_le (Nat.le_add_right ..), List.nil_append]
    rw [List.length_cons, List.range_succ_eq_map, List.map_cons, List.map_map, List.flatten_cons]
    congr 1
    · simp
    · simpa only [Function.comp_def, Nat.succ_eq_add_one, hrest] using ih hrows

end NumberArray

namespace Grid

theorem length_toRows {α : Type} (g : Grid α) : g.toRows.length = g.rows := by
  simp [toRows]

theorem length_of_mem_toRows {α : Type} {g : Grid α} {row : List α} (h : row ∈ g.toRows) :
    row.length = g.cols := by
  obtain ⟨v, -, rfl⟩ := List.mem_map.mp h
  simp

theorem row?_toList {α : Type} {cols : Nat} (v : Vector α cols) : row? cols v.toList = some v := by
  have hlength : v.toList.length = cols := by simp
  rw [row?, dif_pos hlength]
  rfl

theorem mapM_row?_toList {α : Type} {cols : Nat} (vs : List (Vector α cols)) :
    (vs.map (·.toList)).mapM (row? cols) = some vs := by
  induction vs with
  | nil => rfl
  | cons v vs ih =>
    rw [List.map_cons, List.mapM_cons, row?_toList, ih]
    rfl

theorem ofRows?_toRows {α : Type} {g : Grid α} (hrows : 0 < g.rows) :
    ofRows? g.toRows = some g := by
  have hcols : (g.toRows.head?.getD []).length = g.cols := by
    cases hhead : g.toRows with
    | nil =>
      have hlength := g.length_toRows
      rw [hhead] at hlength
      exact absurd hlength (Nat.ne_of_lt hrows)
    | cons row rows =>
      exact length_of_mem_toRows (by rw [hhead]; exact List.mem_cons_self)
  have hgrid : ∀ {cols : Nat}, cols = g.cols → (g.toRows.mapM (row? cols)).map
      (fun vs ↦ (⟨vs.length, cols, ⟨vs.toArray, by simp⟩⟩ : Grid α)) = some g := by
    rintro _ rfl
    rw [toRows, mapM_row?_toList]
    obtain ⟨rows, cols, ⟨cells, rfl⟩⟩ := g
    rfl
  exact hgrid hcols

/-- Rows of one length are those of a grid. -/
theorem exists_toRows_eq {α : Type} {rows : List (List α)} {cols : Nat}
    (h : ∀ row ∈ rows, row.length = cols) :
    ∃ g : Grid α, g.rows = rows.length ∧ g.cols = cols ∧ g.toRows = rows := by
  let vs : List (Vector α cols) := rows.attach.map fun row ↦
    ⟨row.val.toArray, List.size_toArray.trans (h row.val row.property)⟩
  refine ⟨⟨vs.length, cols, ⟨vs.toArray, List.size_toArray⟩⟩, ?_, rfl, ?_⟩
  · change vs.length = rows.length
    rw [List.length_map, List.length_attach]
  · change vs.map (·.toList) = rows
    rw [List.map_map]
    exact List.attach_map_subtype_val rows

theorem cellsOf_nested (g : Grid Float) : NumberArray.cellsOf g.nested = .ok g.toRows.flatten := by
  have hrow : ∀ row : List Float, NumberArray.cellsOf (.list (row.map .number)) = .ok row := by
    intro row
    rw [NumberArray.cellsOf, NumberArray.allCells_map (fun x ↦ rfl) row]
    exact congrArg _ (List.flatMap_singleton' row)
  rw [nested, NumberArray.cellsOf, NumberArray.allCells_map hrow, List.flatMap_id']

theorem haveLength_of_forall {length : Nat} {rows : List Datum}
    (h : ∀ row ∈ rows, rowLength row = .ok length) : haveLength length rows = .ok true := by
  induction rows with
  | nil => rfl
  | cons row rows ih =>
    obtain ⟨hrow, hrows⟩ := List.forall_mem_cons.mp h
    rw [haveLength, hrow]
    change (if length = length then haveLength length rows else return false) = _
    rw [if_pos rfl, ih hrows]

/-- A grid from rows of one length that are an array of numbers. -/
theorem ofDatum_list {rows : List Datum} {length : Nat} {a : NumberArray} (hne : rows ≠ [])
    (hrows : ∀ row ∈ rows, isRow row = true) (hlength : ∀ row ∈ rows, rowLength row = .ok length)
    (ha : NumberArray.ofDatum (.list rows) = .ok a) : ofDatum (.list rows) = ofArray a := by
  obtain ⟨first, others, rfl⟩ := List.exists_cons_of_ne_nil hne
  have hothers : haveLength length others = .ok true :=
    haveLength_of_forall fun row hrow ↦ hlength row (List.mem_cons_of_mem _ hrow)
  unfold ofDatum
  dsimp only
  rw [List.all_eq_true.mpr hrows, if_neg (by decide), hlength first List.mem_cons_self]
  dsimp only [bind, Except.bind]
  rw [hothers]
  dsimp only
  rw [if_neg (by decide), ha]

section

variable {g : Grid Float} (hg : g.Sound)

include hg

theorem Sound.toRows_ne_nil : g.toRows ≠ [] := by
  intro h
  have hlength := g.length_toRows
  rw [h] at hlength
  exact Nat.ne_of_lt hg.rows_pos hlength

theorem Sound.validate_eq : g.validate = .ok g := by
  rw [validate, if_neg (by have := hg.rows_pos; have := hg.cols_pos; omega),
    if_pos ((allFinite_iff g).mpr hg.finite)]

theorem Sound.dimensionsOf_nested :
    NumberArray.dimensionsOf g.nested = .ok [g.rows, g.cols] := by
  have hrow : ∀ row ∈ g.toRows,
      NumberArray.shapeOf (.list (row.map .number)) = some [g.cols] := by
    intro row hrow
    have hlength := length_of_mem_toRows hrow
    have hne : row.map Datum.number ≠ [] := by
      rw [ne_eq, List.map_eq_nil_iff, ← List.length_eq_zero_iff, hlength]
      exact Nat.ne_of_gt hg.cols_pos
    rw [NumberArray.shapeOf, NumberArray.commonShape_of_forall hne, List.length_map, hlength]
    exact List.forall_mem_map.mpr fun x _ ↦ rfl
  have hshape : NumberArray.shapeOf g.nested = some [g.rows, g.cols] := by
    rw [nested, NumberArray.shapeOf, NumberArray.commonShape_of_forall _
      (List.forall_mem_map.mpr hrow), List.length_map, length_toRows]
    exact fun h ↦ hg.toRows_ne_nil (List.map_eq_nil_iff.mp h)
  unfold NumberArray.dimensionsOf
  rw [hshape]
  rfl

theorem Sound.array_nested :
    NumberArray.ofDatum g.nested = .ok ⟨[g.rows, g.cols], g.toRows.flatten⟩ := by
  unfold NumberArray.ofDatum
  rw [hg.dimensionsOf_nested, cellsOf_nested]
  rfl

theorem Sound.ofArray_flatten : ofArray ⟨[g.rows, g.cols], g.toRows.flatten⟩ = .ok g := by
  have hpos : ¬(g.rows = 0 ∨ g.cols = 0) := by
    have hrows := hg.rows_pos
    have hcols := hg.cols_pos
    omega
  have hrows :
      NumberArray.rowsOf ⟨[g.rows, g.cols], g.toRows.flatten⟩ g.rows g.cols = g.toRows := by
    have hflatten := NumberArray.rowsOf_flatten [g.rows, g.cols] fun row hrow ↦
      length_of_mem_toRows (g := g) hrow
    rwa [length_toRows] at hflatten
  unfold ofArray
  dsimp only
  rw [if_neg hpos, hrows, ofRows, ofRows?_toRows hg.rows_pos]
  exact hg.validate_eq

/-- A matrix that is made from the rows of another one has the same entries. -/
theorem Sound.ofDatum_nested : ofDatum g.nested = .ok g := by
  have hne : g.toRows.map (fun row ↦ Datum.list (row.map .number)) ≠ [] :=
    fun h ↦ hg.toRows_ne_nil (List.map_eq_nil_iff.mp h)
  have hlength : ∀ row ∈ g.toRows, rowLength (.list (row.map .number)) = .ok g.cols :=
    fun row hrow ↦ congrArg Except.ok ((List.length_map _).trans (length_of_mem_toRows hrow))
  calc
    _ = ofArray ⟨[g.rows, g.cols], g.toRows.flatten⟩ :=
      ofDatum_list hne (List.forall_mem_map.mpr fun _ _ ↦ rfl) (List.forall_mem_map.mpr hlength)
        hg.array_nested
    _ = .ok g := hg.ofArray_flatten

end

end Grid

end WaveNotebook
