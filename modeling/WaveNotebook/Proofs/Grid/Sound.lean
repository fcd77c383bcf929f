import WaveNotebook.Grid
import WaveNotebook.Proofs.Conversion

/-!
# Sound grids

A grid is sound if it has at least one row and one column and all its entries are finite. Its
rows have equal lengths by its type. Construction and algebra yield sound grids or fail with an
expected fault, and replacing an entry by a finite number keeps a grid sound.
-/

namespace WaveNotebook

structure Grid.Sound (g : Grid Float) : Prop where
  rows_pos : 0 < g.rows
  cols_pos : 0 < g.cols
  finite : ∀ i j, isFinite (g.entry i j) = true

namespace Grid

section

variable {α : Type}

theorem entry_ofFn {rows cols : Nat} (f : Fin rows → Fin cols → α) (i : Fin rows)
    (j : Fin cols) : (ofFn rows cols f).entry i j = f i j := by
  change (Vector.ofFn fun k ↦ Vector.ofFn fun l ↦ f k l)[i.val][j.val] = f i j
  simp

theorem allFinite_iff [FiniteTest α] (g : Grid α) :
    g.allFinite = true ↔ ∀ i j, isFinite (g.entry i j) = true := by
  unfold allFinite entry
  simp only [Vector.all_eq_true]
  constructor
  · intro h i j
    exact h i i.isLt j j.isLt
  · intro h i hi j hj
    exact h ⟨i, hi⟩ ⟨j, hj⟩

theorem entry_replace (g : Grid α) (i : Fin g.rows) (j : Fin g.cols) (value : α)
    (k : Fin g.rows) (l : Fin g.cols) :
    (g.replace i j value).entry k l = if i = k ∧ j = l then value else g.entry k l := by
  unfold entry replace
  by_cases hi : i = k
  · subst hi
    by_cases hj : j = l
    · subst hj
      simp
    · have hne : (j : Nat) ≠ l := fun h ↦ hj (Fin.ext h)
      simp [hj, hne]
  · have hne : (i : Nat) ≠ k := fun h ↦ hi (Fin.ext h)
    simp [hi, hne]

end

/-! ## Construction -/

theorem validate_yields (g : Grid Float) : Yields Sound g.validate := by
  unfold validate
  split
  · exact .error rfl
  · rename_i hsize
    split
    · rename_i hfinite
      exact .ok ⟨by omega, by omega, (allFinite_iff g).mp hfinite⟩
    · exact .error rfl

theorem ofRows_yields (rows : List (List Float)) : Yields Sound (ofRows rows) := by
  unfold ofRows
  split
  · exact validate_yields _
  · exact .error rfl

theorem ofArray_yields (a : NumberArray) : Yields Sound (ofArray a) := by
  unfold ofArray
  split
  · split
    · exact .error rfl
    · exact ofRows_yields _
  · exact .error rfl

theorem rowLength_yields (d : Datum) : Yields (fun _ ↦ True) (rowLength d) := by
  unfold rowLength
  split
  · exact .ok trivial
  · exact .ok trivial
  · exact .error rfl

theorem haveLength_yields (length : Nat) (rows : List Datum) :
    Yields (fun _ ↦ True) (haveLength length rows) := by
  induction rows with
  | nil => exact .ok trivial
  | cons row rows ih =>
    unfold haveLength
    apply (rowLength_yields row).bind
    intro n _
    split
    · exact ih
    · exact .ok trivial

theorem ofDatum_yields (d : Datum) : Yields Sound (ofDatum d) := by
  unfold ofDatum
  split
  · split
    · exact ofArray_yields _
    · exact .error rfl
  · exact .error rfl
  · split
    · exact .error rfl
    · apply (rowLength_yields _).bind
      intro n _
      apply (haveLength_yields _ _).bind
      intro b _
      split
      · exact .error rfl
      · split
        · exact ofArray_yields _
        · exact .error rfl
  · exact .error rfl

/-! ## Algebra -/

theorem checked_yields (operation : GridOperation) {g : Grid Float} (hrows : 0 < g.rows)
    (hcols : 0 < g.cols) : Yields Sound (checked operation g) := by
  unfold checked
  split
  · rename_i hfinite
    exact .ok ⟨hrows, hcols, (allFinite_iff g).mp hfinite⟩
  · exact .error rfl

section

variable {g : Grid Float} (hg : g.Sound)

include hg

theorem Sound.scale (factor : Float) : Yields Sound (g.scale factor) := by
  unfold Grid.scale
  exact checked_yields _ hg.rows_pos hg.cols_pos

theorem Sound.add (other : Grid Float) : Yields Sound (g.add other) := by
  unfold Grid.add
  split
  · exact checked_yields _ hg.rows_pos hg.cols_pos
  · exact .error rfl

theorem Sound.multiply {other : Grid Float} (hother : other.Sound) :
    Yields Sound (g.multiply other) := by
  unfold Grid.multiply
  split
  · exact checked_yields _ hg.rows_pos hother.cols_pos
  · exact .error rfl

theorem Sound.transpose : g.transpose.Sound where
  rows_pos := hg.cols_pos
  cols_pos := hg.rows_pos
  finite i j := (congrArg isFinite (entry_ofFn _ i j)).trans (hg.finite j i)

/-! ## Entries -/

theorem Sound.replace (i : Fin g.rows) (j : Fin g.cols) {x : Float} (hx : isFinite x = true) :
    (g.replace i j x).Sound where
  rows_pos := hg.rows_pos
  cols_pos := hg.cols_pos
  finite k l := by
    refine (congrArg isFinite (entry_replace g i j x k l)).trans ?_
    split
    · exact hx
    · exact hg.finite k l

end

theorem index_yields (g : Grid Float) (row col : Int) :
    Yields (fun p ↦ (p.1 : Int) = row ∧ (p.2 : Int) = col) (g.index row col) := by
  unfold index
  split
  · rename_i h
    exact .ok ⟨Int.toNat_of_nonneg h.1, Int.toNat_of_nonneg h.2.2.1⟩
  · exact .error rfl

theorem indexOf_yields (g : Grid Float) (row col : Datum) :
    Yields (fun p ↦ row.integer? = .ok (some (p.1 : Int)) ∧
      col.integer? = .ok (some (p.2 : Int))) (g.indexOf row col) := by
  unfold indexOf
  apply row.integer?_ends.self.numeric.bind
  intro r hr
  apply col.integer?_ends.self.numeric.bind
  intro c hc
  split
  · rename_i r c
    exact (index_yields g r c).mono fun p hp ↦ ⟨by rw [hp.1, hr.2], by rw [hp.2, hc.2]⟩
  · exact .error rfl

theorem get_yields (g : Grid Float) (row col : Datum) :
    Yields (fun _ ↦ True) (g.get row col) := by
  unfold get
  apply (indexOf_yields g row col).bind
  intro p _
  exact .ok trivial

theorem testable_yields (value : Datum) : Yields (fun _ ↦ True) (testable value) := by
  unfold testable
  split
  · split
    · exact .ok trivial
    · exact .error rfl
  · exact .ok trivial

theorem entryOf_yields (value : Datum) :
    Yields (fun x ↦ isFinite x = true ∧ value.finite? = .ok (some x)) (entryOf value) := by
  unfold entryOf
  apply (testable_yields value).bind
  intro _ _
  apply value.finite?_ends.self.numeric.bind
  intro o ho
  split
  · rename_i x
    exact .ok ⟨ho.1 x rfl, ho.2⟩
  · exact .error rfl

/-- Setting an entry replaces the entry at the given place by the given number. -/
theorem set_yields (g : Grid Float) (row col value : Datum) :
    Yields (fun g' ↦ ∃ (i : Fin g.rows) (j : Fin g.cols) (x : Float),
      row.integer? = .ok (some (i : Int)) ∧ col.integer? = .ok (some (j : Int)) ∧
      value.finite? = .ok (some x) ∧ isFinite x = true ∧ g' = g.replace i j x)
      (g.set row col value) := by
  unfold set
  apply (indexOf_yields g row col).bind
  intro p hp
  apply (entryOf_yields value).bind
  intro x hx
  exact .ok ⟨p.1, p.2, x, hp.1, hp.2, hx.2, hx.1, rfl⟩

end Grid

end WaveNotebook
