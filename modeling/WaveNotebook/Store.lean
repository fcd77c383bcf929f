import WaveNotebook.Grid

/-!
# Shared matrices

Several names can stand for one matrix, and an edit shows through all of them.
So a value holds the handle of a matrix, and a store says which grid the handle
stands for now. Handles come from `Store.alloc` alone, and no handle is ever
given out twice.
-/

namespace WaveNotebook

structure Handle where
  index : Nat
  deriving DecidableEq, Repr

structure Store (α : Type) where
  grids : Array (Grid α)

namespace Store

variable {α : Type}

def empty : Store α := ⟨#[]⟩

/-- The store with one more matrix, and the handle of that matrix. -/
def alloc (s : Store α) (g : Grid α) : Handle × Store α :=
  (⟨s.grids.size⟩, ⟨s.grids.push g⟩)

/-- The grid that a handle stands for. A handle from another store stands for a single zero. -/
def grid [NatCast α] (s : Store α) (h : Handle) : Grid α :=
  s.grids[h.index]?.getD Grid.zero

/-- The store after an edit of one matrix. -/
def put (s : Store α) (h : Handle) (g : Grid α) : Store α :=
  ⟨s.grids.setIfInBounds h.index g⟩

end Store

end WaveNotebook
