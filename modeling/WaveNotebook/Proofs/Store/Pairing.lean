import Mathlib.Order.Basic
import WaveNotebook.Proofs.Store.Edit

/-!
# Paired stores

Two stores can hold the same matrices under different handles. A pairing tells which handles
belong together: it is one-to-one, and handles of a pair stand for the same grid. It says nothing
about the other handles, so that each store can also have matrices of its own. New matrices and
edits keep the stores paired if both stores get them.
-/

namespace WaveNotebook

/-- Which handles of two stores belong together. -/
abbrev Pairing := Handle → Handle → Prop

/-- The pairing with one more pair. -/
def Pairing.extend (R : Pairing) (h k : Handle) : Pairing :=
  fun h' k' ↦ R h' k' ∨ h' = h ∧ k' = k

theorem Pairing.le_extend (R : Pairing) (h k : Handle) : R ≤ R.extend h k :=
  fun _ _ hR ↦ .inl hR

namespace Store

/-- The pairs of a pairing stand for the same grids in two stores. -/
structure Paired (R : Pairing) (s t : Store Float) : Prop where
  left {h k} : R h k → h.index < s.grids.size
  right {h k} : R h k → k.index < t.grids.size
  same {h k} : R h k → s.grid h = t.grid k
  unique {h k h' k'} : R h k → R h' k' → (h = h' ↔ k = k')

variable {R : Pairing} {s t : Store Float}

theorem grid_alloc (s : Store Float) (g : Grid Float) : (s.alloc g).2.grid (s.alloc g).1 = g := by
  simp [alloc, grid]

theorem paired_empty : Paired (fun _ _ ↦ False) s t where
  left := False.elim
  right := False.elim
  same := False.elim
  unique := False.elim

namespace Paired

theorem alloc (h : Paired R s t) (g : Grid Float) :
    Paired (R.extend (s.alloc g).1 (t.alloc g).1) (s.alloc g).2 (t.alloc g).2 where
  left := by
    rintro h' k' (hR | ⟨rfl, -⟩)
    · exact Nat.lt_of_lt_of_le (h.left hR) (s.extends_alloc g).size_le
    · simp [Store.alloc]
  right := by
    rintro h' k' (hR | ⟨-, rfl⟩)
    · exact Nat.lt_of_lt_of_le (h.right hR) (t.extends_alloc g).size_le
    · simp [Store.alloc]
  same := by
    rintro h' k' (hR | ⟨rfl, rfl⟩)
    · rw [(s.extends_alloc g).grid (h.left hR), (t.extends_alloc g).grid (h.right hR), h.same hR]
    · rw [grid_alloc, grid_alloc]
  unique := by
    -- a new handle is the handle of no old pair
    have hleft : ∀ {h' k'}, R h' k' → h' ≠ (s.alloc g).1 := by
      rintro h' k' hR rfl
      exact Nat.lt_irrefl _ (h.left hR)
    have hright : ∀ {h' k'}, R h' k' → k' ≠ (t.alloc g).1 := by
      rintro h' k' hR rfl
      exact Nat.lt_irrefl _ (h.right hR)
    rintro h₁ k₁ h₂ k₂ (hR₁ | ⟨rfl, rfl⟩) (hR₂ | ⟨rfl, rfl⟩)
    · exact h.unique hR₁ hR₂
    · exact iff_of_false (hleft hR₁) (hright hR₁)
    · exact iff_of_false (hleft hR₂).symm (hright hR₂).symm
    · exact iff_of_true rfl rfl

theorem put (h : Paired R s t) {a b : Handle} (hab : R a b) (g : Grid Float) :
    Paired R (s.put a g) (t.put b g) where
  left hR := by
    rw [size_put]
    exact h.left hR
  right hR := by
    rw [size_put]
    exact h.right hR
  same {h' k'} hR := by
    rw [grid_put, grid_put]
    by_cases heq : a = h'
    · rw [if_pos ⟨heq, h.left hab⟩, if_pos ⟨(h.unique hab hR).mp heq, h.right hab⟩]
    · rw [if_neg fun hand ↦ heq hand.1, if_neg fun hand ↦ heq ((h.unique hab hR).mpr hand.1),
        h.same hR]
  unique := h.unique

/-- Some of the pairs stay what they were while the one store changes. -/
theorem restrict {Q : Pairing} {s' : Store Float} (h : Paired R s t) (hQ : Q ≤ R)
    (hsize : s.grids.size ≤ s'.grids.size) (hgrid : ∀ a b, Q a b → s'.grid a = s.grid a) :
    Paired Q s' t where
  left hR := Nat.lt_of_lt_of_le (h.left (hQ _ _ hR)) hsize
  right hR := h.right (hQ _ _ hR)
  same hR := by rw [hgrid _ _ hR, h.same (hQ _ _ hR)]
  unique hR hR' := h.unique (hQ _ _ hR) (hQ _ _ hR')

end Paired

end Store

end WaveNotebook
