import Mathlib.LinearAlgebra.Matrix.Notation
import WaveNotebook.Proofs.Grid.Sound
import WaveNotebook.Proofs.Kernel.Exact

/-!
# The algebra of grids

In exact arithmetic no entry leaves the numbers, so that an operation on grids fails for the
dimensions alone. Every grid is that of a matrix, and on the grids of matrices the operations are
those on matrices. Therefore they obey the laws of matrix algebra, and where one side of a law has
no result because dimensions do not fit, the other side has none for the same reason.
-/

namespace WaveNotebook

/-- Input is refused because the inner dimensions of two factors differ. -/
def Fault.IsProductMismatch (fault : Fault) : Prop :=
  fault.category = .invalidInput ∧ ∃ rows cols rows' cols',
    fault = .grid (.productShape rows cols rows' cols') ∧ cols ≠ rows'

/-- Input is refused because the shapes of two addends differ. -/
def Fault.IsSumMismatch (fault : Fault) : Prop :=
  fault.category = .invalidInput ∧ ∃ rows cols rows' cols',
    fault = .grid (.sumShape rows cols rows' cols') ∧ ¬(rows = rows' ∧ cols = cols')

namespace Grid

/-! ## Grids of matrices -/

section

variable {α : Type} {m k n : ℕ}

/-- The grid with the entries of a matrix. -/
def ofMatrix (M : Matrix (Fin m) (Fin n) α) : Grid α :=
  ofFn m n M

def toMatrix (g : Grid α) : Matrix (Fin g.rows) (Fin g.cols) α :=
  Matrix.of g.entry

@[simp]
theorem rows_ofMatrix (M : Matrix (Fin m) (Fin n) α) : (ofMatrix M).rows = m :=
  rfl

@[simp]
theorem cols_ofMatrix (M : Matrix (Fin m) (Fin n) α) : (ofMatrix M).cols = n :=
  rfl

theorem entry_ofMatrix (M : Matrix (Fin m) (Fin n) α) (i : Fin m) (j : Fin n) :
    (ofMatrix M).entry i j = M i j :=
  entry_ofFn M i j

theorem ofMatrix_toMatrix (g : Grid α) : ofMatrix g.toMatrix = g := by
  obtain ⟨rows, cols, cells⟩ := g
  unfold ofMatrix ofFn
  congr 1
  ext i hi j hj
  simp [toMatrix, entry]

/-- Every grid is that of a matrix. -/
theorem exists_eq_ofMatrix (g : Grid α) : ∃ (m n : ℕ) (M : Matrix (Fin m) (Fin n) α),
    g = ofMatrix M :=
  ⟨g.rows, g.cols, g.toMatrix, (ofMatrix_toMatrix g).symm⟩

theorem ofFn_eq_ofMatrix {f : Fin m → Fin n → α} {M : Matrix (Fin m) (Fin n) α}
    (h : ∀ i j, f i j = M i j) : ofFn m n f = ofMatrix M :=
  congrArg (ofFn m n) (funext fun i ↦ funext fun j ↦ h i j)

theorem transpose_ofMatrix (M : Matrix (Fin m) (Fin n) α) :
    (ofMatrix M).transpose = ofMatrix M.transpose :=
  ofFn_eq_ofMatrix fun j i ↦ entry_ofMatrix M i j

theorem transpose_transpose (g : Grid α) : g.transpose.transpose = g := by
  obtain ⟨m, n, M, rfl⟩ := g.exists_eq_ofMatrix
  rw [transpose_ofMatrix, transpose_ofMatrix, Matrix.transpose_transpose]

end

/-! ## Operations on grids of matrices -/

section

variable {m k n : ℕ}

theorem checked_real (operation : GridOperation) (g : Grid ℝ) : checked operation g = .ok g :=
  if_pos ((allFinite_iff g).mpr fun _ _ ↦ rfl)

theorem scale_ofMatrix (M : Matrix (Fin m) (Fin n) ℝ) (s : ℝ) :
    (ofMatrix M).scale s = .ok (ofMatrix (s • M)) := by
  unfold scale
  rw [checked_real]
  refine congrArg Except.ok (ofFn_eq_ofMatrix fun (i : Fin m) (j : Fin n) ↦ ?_)
  calc
    (ofMatrix M).entry i j * s = M i j * s := congrArg (· * s) (entry_ofMatrix M i j)
    _ = (s • M) i j := mul_comm _ _

theorem add_ofMatrix (M N : Matrix (Fin m) (Fin n) ℝ) :
    (ofMatrix M).add (ofMatrix N) = .ok (ofMatrix (M + N)) := by
  have hshape : (ofMatrix M).rows = (ofMatrix N).rows ∧ (ofMatrix M).cols = (ofMatrix N).cols :=
    ⟨rfl, rfl⟩
  unfold add
  rw [dif_pos hshape, checked_real]
  exact congrArg Except.ok (ofFn_eq_ofMatrix fun (i : Fin m) (j : Fin n) ↦
    congrArg₂ (· + ·) (entry_ofMatrix M i j) (entry_ofMatrix N i j))

theorem multiply_ofMatrix (M : Matrix (Fin m) (Fin k) ℝ) (N : Matrix (Fin k) (Fin n) ℝ) :
    (ofMatrix M).multiply (ofMatrix N) = .ok (ofMatrix (M * N)) := by
  have hinner : (ofMatrix M).cols = (ofMatrix N).rows := rfl
  unfold multiply
  rw [dif_pos hinner, checked_real]
  refine congrArg Except.ok (ofFn_eq_ofMatrix fun (i : Fin m) (j : Fin n) ↦ ?_)
  have hterm : ∀ l : Fin k, (ofMatrix M).entry i l * (ofMatrix N).entry l j = M i l * N l j :=
    fun l ↦ congrArg₂ (· * ·) (entry_ofMatrix M i l) (entry_ofMatrix N l j)
  calc
    sum ((List.finRange k).map fun l ↦ (ofMatrix M).entry i l * (ofMatrix N).entry l j) =
        ((List.finRange k).map fun l ↦ M i l * N l j).sum :=
      (sum_eq_sum _).trans (congrArg List.sum (List.map_congr_left fun l _ ↦ hterm l))
    _ = ∑ l, M i l * N l j := (Fin.sum_univ_def _).symm
    _ = (M * N) i j := (Matrix.mul_apply ..).symm

end

/-! ## Dimensions -/

/-- A computation has no result because the inner dimensions of two factors differ. -/
def Mismatched (r : Except Fault (Grid ℝ)) : Prop :=
  ∃ fault, r = .error fault ∧ fault.IsProductMismatch

/-- Two computations have the same result, or both are mismatched. -/
abbrev SameProduct : Except Fault (Grid ℝ) → Except Fault (Grid ℝ) → Prop :=
  EndsAlike (fun e e' ↦ e.IsProductMismatch ∧ e'.IsProductMismatch) id

/-- Two computations have the same result, or both have none because the shapes of two addends
differ. -/
abbrev SameSum : Except Fault (Grid ℝ) → Except Fault (Grid ℝ) → Prop :=
  EndsAlike (fun e e' ↦ e.IsSumMismatch ∧ e'.IsSumMismatch) id

namespace Mismatched

variable {r r' : Except Fault (Grid ℝ)}

theorem bind (h : Mismatched r) (f : Grid ℝ → Except Fault (Grid ℝ)) : Mismatched (r >>= f) := by
  obtain ⟨fault, rfl, hfault⟩ := h
  exact ⟨fault, rfl, hfault⟩

theorem map (h : Mismatched r) (f : Grid ℝ → Grid ℝ) : Mismatched (f <$> r) := by
  obtain ⟨fault, rfl, hfault⟩ := h
  exact ⟨fault, rfl, hfault⟩

theorem same (h : Mismatched r) (h' : Mismatched r') : SameProduct r r' := by
  obtain ⟨fault, rfl, hfault⟩ := h
  obtain ⟨fault', rfl, hfault'⟩ := h'
  exact .error ⟨hfault, hfault'⟩

end Mismatched

section

variable {a b : Grid ℝ}

theorem mismatched_multiply (h : a.cols ≠ b.rows) : Mismatched (a.multiply b) :=
  ⟨_, dif_neg h, rfl, _, _, _, _, rfl, h⟩

theorem exists_add_eq_error (h : ¬(a.rows = b.rows ∧ a.cols = b.cols)) :
    ∃ fault, a.add b = .error fault ∧ fault.IsSumMismatch :=
  ⟨_, dif_neg h, rfl, _, _, _, _, rfl, h⟩

/-- There is a product exactly if the inner dimensions are the same. -/
theorem exists_multiply_eq_ok_iff : (∃ g, a.multiply b = .ok g) ↔ a.cols = b.rows := by
  constructor
  · rintro ⟨g, hg⟩
    by_contra h
    obtain ⟨fault, hfault, -⟩ := mismatched_multiply h
    rw [hfault] at hg
    cases hg
  · intro h
    obtain ⟨m, k, M, rfl⟩ := a.exists_eq_ofMatrix
    obtain ⟨_, n, N, rfl⟩ := b.exists_eq_ofMatrix
    obtain rfl : k = _ := h
    exact ⟨_, multiply_ofMatrix M N⟩

theorem exists_add_eq_ok_iff :
    (∃ g, a.add b = .ok g) ↔ a.rows = b.rows ∧ a.cols = b.cols := by
  constructor
  · rintro ⟨g, hg⟩
    by_contra h
    obtain ⟨fault, hfault, -⟩ := exists_add_eq_error h
    rw [hfault] at hg
    cases hg
  · rintro ⟨hrows, hcols⟩
    obtain ⟨m, n, M, rfl⟩ := a.exists_eq_ofMatrix
    obtain ⟨_, _, N, rfl⟩ := b.exists_eq_ofMatrix
    obtain rfl : m = _ := hrows
    obtain rfl : n = _ := hcols
    exact ⟨_, add_ofMatrix M N⟩

end

/-! ## Laws -/

section

variable (a b c : Grid ℝ)

theorem multiply_assoc :
    SameProduct (a.multiply b >>= (·.multiply c)) (b.multiply c >>= a.multiply) := by
  obtain ⟨m, k, A, rfl⟩ := a.exists_eq_ofMatrix
  obtain ⟨k', l, B, rfl⟩ := b.exists_eq_ofMatrix
  obtain ⟨l', n, C, rfl⟩ := c.exists_eq_ofMatrix
  by_cases hleft : k = k'
  · subst hleft
    rw [multiply_ofMatrix A B]
    change SameProduct ((ofMatrix (A * B)).multiply (ofMatrix C)) _
    by_cases hright : l = l'
    · subst hright
      rw [multiply_ofMatrix B C]
      change SameProduct _ ((ofMatrix A).multiply (ofMatrix (B * C)))
      rw [multiply_ofMatrix, multiply_ofMatrix, Matrix.mul_assoc]
      exact .ok _
    · exact (mismatched_multiply hright).same ((mismatched_multiply hright).bind _)
  · refine ((mismatched_multiply hleft).bind _).same ?_
    -- with fitting dimensions on the right the outer product is mismatched, else the inner one
    by_cases hright : l = l'
    · subst hright
      rw [multiply_ofMatrix B C]
      exact mismatched_multiply (b := ofMatrix (B * C)) hleft
    · exact (mismatched_multiply hright).bind _

theorem multiply_add (hinner : a.cols = b.rows) (hrows : b.rows = c.rows)
    (hcols : b.cols = c.cols) :
    ∃ g, (b.add c >>= a.multiply) = .ok g ∧
      (do (← a.multiply b).add (← a.multiply c)) = .ok g := by
  obtain ⟨m, k, A, rfl⟩ := a.exists_eq_ofMatrix
  obtain ⟨_, n, B, rfl⟩ := b.exists_eq_ofMatrix
  obtain ⟨_, _, C, rfl⟩ := c.exists_eq_ofMatrix
  obtain rfl : k = _ := hinner
  obtain rfl : k = _ := hrows
  obtain rfl : n = _ := hcols
  refine ⟨ofMatrix (A * (B + C)), ?_, ?_⟩
  · rw [add_ofMatrix]
    exact multiply_ofMatrix A (B + C)
  · rw [multiply_ofMatrix, multiply_ofMatrix, Matrix.mul_add]
    exact add_ofMatrix (A * B) (A * C)

theorem transpose_multiply :
    SameProduct (transpose <$> a.multiply b) (b.transpose.multiply a.transpose) := by
  obtain ⟨m, k, A, rfl⟩ := a.exists_eq_ofMatrix
  obtain ⟨k', n, B, rfl⟩ := b.exists_eq_ofMatrix
  rw [transpose_ofMatrix, transpose_ofMatrix]
  by_cases hinner : k = k'
  · subst hinner
    rw [multiply_ofMatrix, multiply_ofMatrix, ← Matrix.transpose_mul, ← transpose_ofMatrix]
    exact .ok _
  · exact ((mismatched_multiply hinner).map _).same (mismatched_multiply (Ne.symm hinner))

theorem scale_multiply (s : ℝ) :
    SameProduct (a.multiply b >>= (·.scale s)) (a.scale s >>= (·.multiply b)) := by
  obtain ⟨m, k, A, rfl⟩ := a.exists_eq_ofMatrix
  obtain ⟨k', n, B, rfl⟩ := b.exists_eq_ofMatrix
  rw [scale_ofMatrix]
  change SameProduct _ ((ofMatrix (s • A)).multiply (ofMatrix B))
  by_cases hinner : k = k'
  · subst hinner
    rw [multiply_ofMatrix A B]
    change SameProduct ((ofMatrix (A * B)).scale s) _
    rw [scale_ofMatrix, multiply_ofMatrix, Matrix.smul_mul]
    exact .ok _
  · exact ((mismatched_multiply hinner).bind _).same (mismatched_multiply hinner)

theorem add_symm : SameSum (a.add b) (b.add a) := by
  by_cases hshape : a.rows = b.rows ∧ a.cols = b.cols
  · obtain ⟨m, n, A, rfl⟩ := a.exists_eq_ofMatrix
    obtain ⟨_, _, B, rfl⟩ := b.exists_eq_ofMatrix
    obtain ⟨rfl, rfl⟩ : m = _ ∧ n = _ := hshape
    rw [add_ofMatrix, add_ofMatrix, add_comm A B]
    exact .ok _
  · obtain ⟨fault, hleft, hmismatch⟩ := exists_add_eq_error hshape
    obtain ⟨fault', hright, hmismatch'⟩ :=
      exists_add_eq_error fun h ↦ hshape ⟨h.1.symm, h.2.symm⟩
    rw [hleft, hright]
    exact .error ⟨hmismatch, hmismatch'⟩

/-- Products are associative, distribute over sums and are turned around by the transpose; a factor
can be taken out of a product, and sums are commutative. There are products and sums exactly of
grids that fit, and where one side of a law has no result, the other one has none either. -/
theorem matrix_laws (s : ℝ) :
    ((∃ g, a.multiply b = .ok g) ↔ a.cols = b.rows) ∧
      ((∃ g, a.add b = .ok g) ↔ a.rows = b.rows ∧ a.cols = b.cols) ∧
      SameProduct (a.multiply b >>= (·.multiply c)) (b.multiply c >>= a.multiply) ∧
      (a.cols = b.rows → b.rows = c.rows → b.cols = c.cols →
        ∃ g, (b.add c >>= a.multiply) = .ok g ∧
          (do (← a.multiply b).add (← a.multiply c)) = .ok g) ∧
      SameProduct (transpose <$> a.multiply b) (b.transpose.multiply a.transpose) ∧
      a.transpose.transpose = a ∧
      SameProduct (a.multiply b >>= (·.scale s)) (a.scale s >>= (·.multiply b)) ∧
      SameSum (a.add b) (b.add a) :=
  ⟨exists_multiply_eq_ok_iff, exists_add_eq_ok_iff, multiply_assoc a b c, multiply_add a b c,
    transpose_multiply a b, transpose_transpose a, scale_multiply a b s, add_symm a b⟩

end

/-- A row times a sum of oblong matrices. -/
theorem matrix_laws_oblong :
    let a := ofMatrix !![(1 : ℝ), 2]
    let b := ofMatrix !![(1 : ℝ), 0, 3; 0, 1, 4]
    let c := ofMatrix !![(2 : ℝ), 2, 0; 5, 0, 1]
    (a.cols = b.rows ∧ b.rows = c.rows ∧ b.cols = c.cols) ∧
      (b.add c >>= a.multiply) = .ok (ofMatrix !![13, 4, 13]) ∧
      (do (← a.multiply b).add (← a.multiply c)) = .ok (ofMatrix !![13, 4, 13]) := by
  intro a b c
  have hfits : a.cols = b.rows ∧ b.rows = c.rows ∧ b.cols = c.cols := by
    exact ⟨(cols_ofMatrix _).trans (rows_ofMatrix _).symm,
      (rows_ofMatrix _).trans (rows_ofMatrix _).symm,
      (cols_ofMatrix _).trans (cols_ofMatrix _).symm⟩
  have hvalue : !![(1 : ℝ), 2] * (!![(1 : ℝ), 0, 3; 0, 1, 4] + !![2, 2, 0; 5, 0, 1]) =
      !![13, 4, 13] := by
    norm_num
  have hproduct : (b.add c >>= a.multiply) = .ok (ofMatrix !![13, 4, 13]) := by
    rw [add_ofMatrix, ← hvalue]
    exact multiply_ofMatrix !![(1 : ℝ), 2] _
  obtain ⟨-, -, -, hdistributive, -⟩ := matrix_laws a b c 0
  obtain ⟨g, hsum, hproducts⟩ := hdistributive hfits.1 hfits.2.1 hfits.2.2
  rw [hproduct] at hsum
  rw [hproducts, ← hsum]
  exact ⟨hfits, hproduct, rfl⟩

end Grid

end WaveNotebook
