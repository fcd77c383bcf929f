import WaveNotebook.Value

/-!
# Computations of a notebook

What a computation changes besides its result is the session: the store of
matrices and the notices so far. Both stay as they are when a computation fails.
-/

namespace WaveNotebook

structure Session where
  store : Store Float
  notices : List Notice

def Session.empty : Session := ⟨Store.empty, []⟩

abbrev Run := ExceptT Fault (StateM Session)

namespace Run

def lift {α : Type} (r : Except Fault α) : Run α :=
  ExceptT.mk (pure r)

def fail {α : Type} (fault : Fault) : Run α :=
  lift (.error fault)

/-- A new matrix. -/
def newMatrix (g : Grid Float) : Run Value :=
  ExceptT.mk fun s =>
    let (h, store) := s.store.alloc g
    (.ok (.matrix h), { s with store := store })

/-- The present state of a matrix. -/
def grid (h : Handle) : Run (Grid Float) :=
  ExceptT.mk fun s => (.ok (s.store.grid h), s)

/-- Edits a matrix in place. -/
def putGrid (h : Handle) (g : Grid Float) : Run Unit :=
  ExceptT.mk fun s => (.ok (), { s with store := s.store.put h g })

def note (notices : List Notice) : Run Unit :=
  ExceptT.mk fun s => (.ok (), { s with notices := s.notices ++ notices })

/-- Arguments as loosely typed data, which hold the written form of a value other than a
number. -/
def toData (args : List Argument) : Run (List Datum) :=
  ExceptT.mk fun s => (.ok (args.map (·.toDatum s.store)), s)

end Run

end WaveNotebook
