import WaveNotebook.Proofs.Matrix.Operation

/-!
# The entries of shared matrices through a program

Operations are done one after another, failed ones included, and leave a trace of events. Every
matrix that is there was made by one of them. Since then it has kept its shape, and each of its
entries is the number of the last completed `set` of its place, or the one that it was made with.
-/

namespace WaveNotebook

/-- The session behind operations that are done one after another. -/
def Session.after (s : Session) : List MatrixOperation → Session
  | [] => s
  | op :: ops => after (op.perform.run s).2 ops

/-- What operations that are done one after another give back. -/
def Session.events (s : Session) : List MatrixOperation → List MatrixEvent
  | [] => []
  | op :: ops => ⟨op, (op.perform.run s).1⟩ :: events (op.perform.run s).2 ops

namespace Session

/-- Through operations from a session on, a matrix keeps its shape, and nothing but `set` has
changed its entries. -/
structure Tracks (s : Session) (ops : List MatrixOperation) (k : Handle) : Prop where
  rows : ((s.after ops).store.grid k).rows = (s.store.grid k).rows
  cols : ((s.after ops).store.grid k).cols = (s.store.grid k).cols
  /-- An entry is the number of the last completed `set` of its place. -/
  last : ∀ before event after row col x, s.events ops = before ++ event :: after →
    event.Completes ⟨k, row, col, x⟩ →
    (∀ later ∈ after, ∀ y, ¬later.Completes ⟨k, row, col, y⟩) →
    ((s.after ops).store.grid k).cell? row col = some x
  /-- An entry whose place has not been set is still the same. -/
  unset : ∀ row col, (∀ event ∈ s.events ops, ∀ x, ¬event.Completes ⟨k, row, col, x⟩) →
    ((s.after ops).store.grid k).cell? row col = (s.store.grid k).cell? row col

theorem after_append (s : Session) (ops more : List MatrixOperation) :
    s.after (ops ++ more) = (s.after ops).after more := by
  induction ops generalizing s with
  | nil => rfl
  | cons op ops ih => exact ih _

theorem tracks {s : Session} (ops : List MatrixOperation) {k : Handle} (hk : s.store.Has k) :
    s.Tracks ops k := by
  induction ops generalizing s with
  | nil =>
    refine ⟨rfl, rfl, fun before event after row col x hsplit ↦ ?_, fun row col _ ↦ rfl⟩
    cases before <;> cases hsplit
  | cons op ops ih =>
    have heffect := op.effect s
    have hrest := ih (heffect.has hk)
    refine ⟨hrest.rows.trans (heffect.rows_eq hk), hrest.cols.trans (heffect.cols_eq hk),
      fun before event after row col x hsplit hset hno ↦ ?_, fun row col hno ↦ ?_⟩
    · cases before with
      | nil =>
        -- the first operation is the last one that sets the entry
        obtain ⟨rfl, rfl⟩ := List.cons.inj hsplit
        exact (hrest.unset row col hno).trans (heffect.cell?_of_edit hk hset)
      | cons first before =>
        exact hrest.last before event after row col x (List.cons.inj hsplit).2 hset hno
    · obtain ⟨hfirst, hno⟩ := List.forall_mem_cons.mp hno
      exact (hrest.unset row col hno).trans (heffect.cell?_of_no_edit hk hfirst)

/-- A matrix that is there behind operations was there before, or one of them has made it, as its
result. -/
theorem has_after {s : Session} {ops : List MatrixOperation} {k : Handle}
    (hk : (s.after ops).store.Has k) : s.store.Has k ∨
      ∃ before op more, ops = before ++ op :: more ∧ ¬(s.after before).store.Has k ∧
        (op.perform.run (s.after before)).1 = .ok (.matrix k) ∧
        (s.after (before ++ [op])).store.Has k := by
  induction ops generalizing s with
  | nil => exact .inl hk
  | cons op ops ih =>
    obtain hhas | ⟨before, op', more, rfl, hnew, hmade⟩ := ih hk
    · by_cases hold : s.store.Has k
      · exact .inl hold
      · exact .inr ⟨[], op, ops, rfl, hold, (op.effect s).result_of_new hold hhas, hhas⟩
    · exact .inr ⟨op :: before, op', more, rfl, hnew, hmade⟩

theorem sound_after {s : Session} (hs : s.store.Sound) (ops : List MatrixOperation) :
    (s.after ops).store.Sound := by
  induction ops generalizing s with
  | nil => exact hs
  | cons op ops ih => exact ih ((op.effect s).sound hs)

/-- In every session that operations lead to, one more operation keeps its contract, and every
matrix has been made by one of the operations and tracks what has been set since then. -/
theorem shared_matrices (ops : List MatrixOperation) :
    (∀ op, MatrixOperation.Contract (empty.after ops) op (op.perform.run (empty.after ops)).1
      (op.perform.run (empty.after ops)).2) ∧
    ∀ k, (empty.after ops).store.Has k → ∃ before op more, ops = before ++ op :: more ∧
      ¬(empty.after before).store.Has k ∧
      (op.perform.run (empty.after before)).1 = .ok (.matrix k) ∧
      (empty.after (before ++ [op])).after more = empty.after ops ∧
      (empty.after (before ++ [op])).Tracks more k := by
  refine ⟨fun op ↦ op.contract (sound_after Store.sound_empty ops), fun k hk ↦ ?_⟩
  obtain hempty | ⟨before, op, more, rfl, hnew, hmade, hhas⟩ := has_after hk
  · exact absurd hempty (Nat.not_lt_zero _)
  · refine ⟨before, op, more, rfl, hnew, hmade, ?_, tracks more hhas⟩
    rw [← after_append, List.append_assoc, List.singleton_append]

/-- A transpose does not follow the edits of the matrix that it was computed from. -/
example :
    let row : Datum := .list [.number 1.0, .number 2.0]
    let s := empty.after [.make (.list [row]), .transpose ⟨0⟩,
      .set ⟨0⟩ (.integer 0) (.integer 1) (.number 5.0), .set ⟨0⟩ (.integer 0) (.integer (-1)) row]
    ((s.store.grid ⟨0⟩).cell? 0 1).map Binary64.truncate = some 5 ∧
      ((s.store.grid ⟨1⟩).cell? 1 0).map Binary64.truncate = some 2 := by
  decide +kernel

end Session

end WaveNotebook
