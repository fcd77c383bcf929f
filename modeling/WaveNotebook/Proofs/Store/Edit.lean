import WaveNotebook.Proofs.Grid.Sound
import WaveNotebook.Store

/-!
# Edits of shared matrices

A store changes in two ways: it gets new matrices, and entries of old ones are replaced. The
second is an edit, which names a matrix, a place and a number. `Store.Extends` says that only new
matrices came, and carrying out edits respects it, so that edits and new matrices can come in any
order. A matrix keeps its dimensions under edits, and each of its entries is the number of the
last edit of its place, or the old entry if there is none.
-/

namespace WaveNotebook

namespace Grid

variable {α : Type}

/-- The entry of a place that a grid has. -/
def cell? (g : Grid α) (row col : Nat) : Option α :=
  if h : row < g.rows ∧ col < g.cols then some (g.entry ⟨row, h.1⟩ ⟨col, h.2⟩) else none

/-- The grid with another number at a place, if it has the place. -/
def edit (g : Grid α) (row col : Nat) (value : α) : Grid α :=
  if h : row < g.rows ∧ col < g.cols then g.replace ⟨row, h.1⟩ ⟨col, h.2⟩ value else g

theorem edit_fin (g : Grid α) (i : Fin g.rows) (j : Fin g.cols) (value : α) :
    g.edit i j value = g.replace i j value := by
  rw [edit, dif_pos ⟨i.isLt, j.isLt⟩]

@[simp]
theorem rows_edit (g : Grid α) (row col : Nat) (value : α) :
    (g.edit row col value).rows = g.rows := by
  unfold edit
  split <;> rfl

@[simp]
theorem cols_edit (g : Grid α) (row col : Nat) (value : α) :
    (g.edit row col value).cols = g.cols := by
  unfold edit
  split <;> rfl

theorem cell?_edit (g : Grid α) (row col i j : Nat) (value : α) :
    (g.edit row col value).cell? i j =
      if row = i ∧ col = j then (g.cell? i j).map fun _ ↦ value else g.cell? i j := by
  by_cases hplace : row < g.rows ∧ col < g.cols
  · rw [show g.edit row col value = g.replace ⟨row, hplace.1⟩ ⟨col, hplace.2⟩ value from
      dif_pos hplace]
    by_cases hij : i < g.rows ∧ j < g.cols
    · have hreplace :=
        entry_replace g ⟨row, hplace.1⟩ ⟨col, hplace.2⟩ value ⟨i, hij.1⟩ ⟨j, hij.2⟩
      simp only [Fin.mk.injEq] at hreplace
      have hnew : (g.replace ⟨row, hplace.1⟩ ⟨col, hplace.2⟩ value).cell? i j =
          some (if row = i ∧ col = j then value else g.entry ⟨i, hij.1⟩ ⟨j, hij.2⟩) :=
        (dif_pos hij).trans (congrArg some hreplace)
      have hold : g.cell? i j = some (g.entry ⟨i, hij.1⟩ ⟨j, hij.2⟩) := dif_pos hij
      rw [hnew, hold]
      split <;> rfl
    · have hnew : (g.replace ⟨row, hplace.1⟩ ⟨col, hplace.2⟩ value).cell? i j = none :=
        dif_neg hij
      have hold : g.cell? i j = none := dif_neg hij
      rw [hnew, hold]
      split <;> rfl
  · rw [show g.edit row col value = g from dif_neg hplace]
    split
    · rename_i heq
      obtain ⟨rfl, rfl⟩ := heq
      rw [cell?, dif_neg hplace, Option.map_none]
    · rfl

end Grid

/-- A number that takes the place of an entry of a matrix. -/
structure Edit where
  handle : Handle
  row : Nat
  col : Nat
  value : Float

namespace Edit

/-- Whether an edit is one of the given place of the given matrix. -/
def At (e : Edit) (h : Handle) (row col : Nat) : Prop :=
  e.handle = h ∧ e.row = row ∧ e.col = col

instance (e : Edit) (h : Handle) (row col : Nat) : Decidable (e.At h row col) :=
  inferInstanceAs (Decidable (_ ∧ _))

/-- The number that the last edit of a place gives it. -/
def last? (edits : List Edit) (h : Handle) (row col : Nat) : Option Float :=
  (edits.reverse.find? (·.At h row col)).map (·.value)

end Edit

namespace Store

def carryOut (st : Store Float) (e : Edit) : Store Float :=
  st.put e.handle ((st.grid e.handle).edit e.row e.col e.value)

/-- The store after edits, the first one first. -/
def replay (st : Store Float) (edits : List Edit) : Store Float :=
  edits.foldl carryOut st

/-- All matrices of the one store are in the other, unchanged and at the same places. -/
def Extends (new old : Store Float) : Prop :=
  old.grids.toList <+: new.grids.toList

def Sound (st : Store Float) : Prop :=
  ∀ g ∈ st.grids, g.Sound

theorem replay_append (st : Store Float) (xs ys : List Edit) :
    st.replay (xs ++ ys) = (st.replay xs).replay ys :=
  List.foldl_append

/-! ## Look-ups -/

theorem grid_put {α : Type} [NatCast α] (st : Store α) (h k : Handle) (g : Grid α) :
    (st.put h g).grid k = if h = k ∧ h.index < st.grids.size then g else st.grid k := by
  obtain ⟨i⟩ := h
  obtain ⟨j⟩ := k
  simp only [grid, put, Array.getElem?_setIfInBounds, Handle.mk.injEq]
  by_cases hij : i = j
  · subst hij
    by_cases hi : i < st.grids.size
    · simp [hi]
    · simp [hi]
  · simp [hij]

@[simp]
theorem size_put {α : Type} (st : Store α) (h : Handle) (g : Grid α) :
    (st.put h g).grids.size = st.grids.size :=
  Array.size_setIfInBounds

/-- An edit of a matrix from another store has no effect. -/
theorem put_of_size_le {α : Type} (st : Store α) {h : Handle} (g : Grid α)
    (hsize : st.grids.size ≤ h.index) : st.put h g = st := by
  rw [put, Array.setIfInBounds_eq_of_size_le hsize]

theorem size_replay (st : Store Float) (edits : List Edit) :
    (st.replay edits).grids.size = st.grids.size := by
  induction edits generalizing st with
  | nil => rfl
  | cons e edits ih => exact (ih _).trans (size_put ..)

theorem grid_carryOut (st : Store Float) (e : Edit) (h : Handle) :
    (st.carryOut e).grid h =
      if e.handle = h ∧ h.index < st.grids.size then (st.grid h).edit e.row e.col e.value
      else st.grid h := by
  rw [carryOut, grid_put]
  by_cases heq : e.handle = h
  · subst heq
    rfl
  · rw [if_neg (fun h ↦ heq h.1), if_neg (fun h ↦ heq h.1)]

/-- A matrix that no edit is about. -/
theorem grid_replay_of_ne (st : Store Float) {edits : List Edit} {h : Handle}
    (hne : ∀ e ∈ edits, e.handle ≠ h) : (st.replay edits).grid h = st.grid h := by
  induction edits generalizing st with
  | nil => rfl
  | cons e edits ih =>
    refine (ih _ fun e' he' ↦ hne e' (List.mem_cons_of_mem _ he')).trans ?_
    rw [grid_carryOut, if_neg (fun hand ↦ hne e List.mem_cons_self hand.1)]

section

variable (st : Store Float) (edits : List Edit) (h : Handle)

theorem rows_replay : ((st.replay edits).grid h).rows = (st.grid h).rows := by
  induction edits generalizing st with
  | nil => rfl
  | cons e edits ih =>
    refine (ih _).trans ?_
    rw [grid_carryOut]
    split
    · exact Grid.rows_edit ..
    · rfl

theorem cols_replay : ((st.replay edits).grid h).cols = (st.grid h).cols := by
  induction edits generalizing st with
  | nil => rfl
  | cons e edits ih =>
    refine (ih _).trans ?_
    rw [grid_carryOut]
    split
    · exact Grid.cols_edit ..
    · rfl

theorem cell?_carryOut (e : Edit) (hsize : h.index < st.grids.size) (row col : Nat) :
    ((st.carryOut e).grid h).cell? row col =
      if e.At h row col then ((st.grid h).cell? row col).map fun _ ↦ e.value
      else (st.grid h).cell? row col := by
  rw [grid_carryOut]
  by_cases heq : e.handle = h
  · rw [if_pos ⟨heq, hsize⟩, Grid.cell?_edit]
    simp only [Edit.At, heq, true_and]
  · rw [if_neg (fun hand ↦ heq hand.1), if_neg (fun hat ↦ heq hat.1)]

/-- An entry after edits is the number of the last edit of its place, or the old entry. -/
theorem cell?_replay (hsize : h.index < st.grids.size) (row col : Nat) :
    ((st.replay edits).grid h).cell? row col =
      ((st.grid h).cell? row col).map fun x ↦ (Edit.last? edits h row col).getD x := by
  induction edits generalizing st with
  | nil => exact Option.map_id'.symm
  | cons e edits ih =>
    refine (ih (st.carryOut e) (by rwa [carryOut, size_put])).trans ?_
    rw [st.cell?_carryOut h e hsize]
    unfold Edit.last?
    rw [List.reverse_cons, List.find?_append]
    cases edits.reverse.find? (·.At h row col) with
    | some last => split <;> simp [Function.comp_def]
    | none => split <;> simp_all [Function.comp_def]

end

/-! ## Stores that extend others -/

namespace Extends

variable {a b c : Store Float}

theorem refl (a : Store Float) : a.Extends a :=
  List.prefix_refl _

theorem trans (hcb : c.Extends b) (hba : b.Extends a) : c.Extends a :=
  List.IsPrefix.trans hba hcb

theorem size_le (h : b.Extends a) : a.grids.size ≤ b.grids.size :=
  List.IsPrefix.length_le h

theorem grid (hext : b.Extends a) {h : Handle} (hsize : h.index < a.grids.size) :
    b.grid h = a.grid h := by
  obtain ⟨more, hmore⟩ := hext
  unfold Store.grid
  rw [← Array.getElem?_toList, ← Array.getElem?_toList, ← hmore,
    List.getElem?_append_left (by simpa using hsize)]

theorem put (h : b.Extends a) (k : Handle) (g : Grid Float) : (b.put k g).Extends (a.put k g) := by
  obtain ⟨more, hmore⟩ := h
  unfold Extends Store.put
  rw [Array.toList_setIfInBounds, Array.toList_setIfInBounds, ← hmore, List.set_append]
  split
  · exact ⟨_, rfl⟩
  · rename_i hsize
    rw [List.set_eq_of_length_le (Nat.le_of_not_lt hsize)]
    exact ⟨_, rfl⟩

theorem carryOut (h : b.Extends a) (e : Edit) : (b.carryOut e).Extends (a.carryOut e) := by
  unfold Store.carryOut
  by_cases hsize : e.handle.index < a.grids.size
  · rw [h.grid hsize]
    exact h.put _ _
  · rw [a.put_of_size_le _ (Nat.le_of_not_lt hsize)]
    refine trans (h.put e.handle _) ?_
    rw [a.put_of_size_le _ (Nat.le_of_not_lt hsize)]
    exact refl a

theorem replay (h : b.Extends a) (edits : List Edit) :
    (b.replay edits).Extends (a.replay edits) := by
  induction edits generalizing a b with
  | nil => exact h
  | cons e edits ih => exact ih (h.carryOut e)

end Extends

theorem extends_alloc (st : Store Float) (g : Grid Float) : (st.alloc g).2.Extends st := by
  unfold Extends alloc
  rw [Array.toList_push]
  exact List.prefix_append _ _

/-! ## Sound stores -/

theorem sound_empty : empty.Sound := fun g hg ↦ by simp [empty] at hg

namespace Sound

variable {st : Store Float} (hst : st.Sound)

include hst

/-- What a handle stands for is sound, even if the handle is from another store. -/
theorem grid (h : Handle) : (st.grid h).Sound := by
  unfold Store.grid
  cases hget : st.grids[h.index]? with
  | some g => exact hst g (Array.mem_of_getElem? hget)
  | none => exact ⟨Nat.one_pos, Nat.one_pos, by decide⟩

theorem alloc {g : Grid Float} (hg : g.Sound) : (st.alloc g).2.Sound := by
  intro g' hg'
  obtain hg' | rfl := Array.mem_push.mp hg'
  · exact hst g' hg'
  · exact hg

theorem put {g : Grid Float} (h : Handle) (hg : g.Sound) : (st.put h g).Sound := by
  intro g' hg'
  obtain hg' | rfl := Array.mem_or_eq_of_mem_setIfInBounds hg'
  · exact hst g' hg'
  · exact hg

end Sound

end Store

end WaveNotebook
