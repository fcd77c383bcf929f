import WaveNotebook.Proofs.Grid.Nested
import WaveNotebook.Proofs.Grid.Place
import WaveNotebook.Proofs.Method.Standard
import WaveNotebook.Proofs.Store.Pairing

/-!
# Operations on shared matrices

A program makes matrices, from data or from one another, and reads and sets their entries. Its
references to matrices are handles, so that two references to one matrix are the same handle.
An operation either fails and changes nothing, or it makes one matrix under a handle of its own,
or reads an entry, or sets an entry. What it does to the matrices that were there before follows
from these four cases.
-/

namespace WaveNotebook

/-- The matrix of a handle is there. -/
def Store.Has (st : Store Float) (h : Handle) : Prop :=
  h.index < st.grids.size

inductive MatrixOperation
  /-- A matrix from data. -/
  | make (data : Datum)
  /-- A matrix from the entries of another one. -/
  | copy (h : Handle)
  | add (h : Handle) (other : Argument)
  | multiply (h : Handle) (other : Argument)
  | transpose (h : Handle)
  | get (h : Handle) (row col : Datum)
  | set (h : Handle) (row col value : Datum)

namespace MatrixOperation

def perform : MatrixOperation → Run Value
  | make data => do Run.newMatrix (← Run.lift (Grid.ofDatum data))
  | copy h => do Run.newMatrix (← Run.lift (Grid.ofDatum (← Run.grid h).nested))
  | add h other => h.add other
  | multiply h other => h.multiply other
  | transpose h => h.transpose
  | get h row col => h.get row col
  | set h row col value => h.set row col value

/-- Whether an operation makes a matrix. -/
def makes : MatrixOperation → Bool
  | get .. | set .. => false
  | make _ | copy _ | add .. | multiply .. | transpose _ => true

/-! ## What an operation can do -/

/-- The ways in which an operation can end: with a result, in a session. -/
inductive Effect (s : Session) : MatrixOperation → Except Fault Value → Session → Prop
  | refused (op : MatrixOperation) (fault : Fault) : Effect s op (.error fault) s
  | made {op : MatrixOperation} (hop : op.makes = true) {g : Grid Float}
    (hg : s.store.Sound → g.Sound) :
    Effect s op (.ok (.matrix (s.store.alloc g).1)) { s with store := (s.store.alloc g).2 }
  | observed {h : Handle} {row col : Datum} {x : Float}
    (hx : (s.store.grid h).get row col = .ok x) :
    Effect s (get h row col) (.ok (.number x)) s
  | edited {h : Handle} {row col value : Datum} {g : Grid Float}
    (hg : (s.store.grid h).set row col value = .ok g) :
    Effect s (set h row col value) (.ok (.matrix h)) { s with store := s.store.put h g }

/-- An operation that makes a matrix computes a grid first. -/
theorem exists_perform_eq {op : MatrixOperation} (hop : op.makes = true) (s : Session) :
    ∃ r, op.perform.run s = (Run.lift r >>= Run.newMatrix).run s ∧
      (s.store.Sound → Yields Grid.Sound r) := by
  match op with
  | make data => exact ⟨Grid.ofDatum data, rfl, fun _ ↦ Grid.ofDatum_yields data⟩
  | copy h => exact ⟨Grid.ofDatum (s.store.grid h).nested, rfl, fun _ ↦ Grid.ofDatum_yields _⟩
  | transpose h =>
    exact ⟨.ok (s.store.grid h).transpose, rfl, fun hs ↦ .ok (hs.grid h).transpose⟩
  | add h other =>
    change ∃ r, (h.add other).run s = _ ∧ _
    unfold Handle.add
    split
    · rename_i k
      exact ⟨(s.store.grid h).add (s.store.grid k), rfl, fun hs ↦ (hs.grid h).add _⟩
    · exact ⟨.error (.grid .addend), rfl, fun _ ↦ .error rfl⟩
  | multiply h other =>
    change ∃ r, (h.multiply other).run s = _ ∧ _
    unfold Handle.multiply
    split
    · rename_i x
      split
      · exact ⟨(s.store.grid h).scale x, rfl, fun hs ↦ (hs.grid h).scale x⟩
      · exact ⟨.error (.grid (.factor (floatText x))), rfl, fun _ ↦ .error rfl⟩
    · rename_i k
      exact ⟨(s.store.grid h).multiply (s.store.grid k), rfl,
        fun hs ↦ (hs.grid h).multiply (hs.grid k)⟩
    · exact ⟨.error (.grid .multiplier), rfl, fun _ ↦ .error rfl⟩

theorem run_get (h : Handle) (row col : Datum) (s : Session) :
    (h.get row col).run s = (Value.number <$> (s.store.grid h).get row col, s) := by
  have hgrid : (Run.grid h).run s = (.ok (s.store.grid h), s) := rfl
  unfold Handle.get
  rw [Run.run_bind_ok hgrid]
  cases (s.store.grid h).get row col <;> rfl

theorem effect (op : MatrixOperation) (s : Session) :
    Effect s op (op.perform.run s).1 (op.perform.run s).2 := by
  by_cases hop : op.makes = true
  · obtain ⟨r, hr, hyields⟩ := exists_perform_eq hop s
    rw [hr]
    cases r with
    | ok g => exact .made hop fun hs ↦ (hyields hs).value
    | error fault => exact .refused op fault
  · match op with
    | get h row col =>
      unfold perform
      rw [run_get]
      cases hx : (s.store.grid h).get row col with
      | ok x => exact .observed hx
      | error fault => exact .refused _ fault
    | set h row col value =>
      unfold perform
      rw [Method.run_set]
      cases hg : (s.store.grid h).set row col value with
      | ok g => exact .edited hg
      | error fault => exact .refused _ fault

end MatrixOperation

/-- An operation that a program has done, with what it gave back. -/
structure MatrixEvent where
  operation : MatrixOperation
  result : Except Fault Value

/-- A `set` that has succeeded is an edit: its indices are equal to the row and the column, and
the number is that of its value. -/
inductive MatrixEvent.Completes : MatrixEvent → Edit → Prop
  | set {h : Handle} {row col value : Datum} {v : Value} {i j : Nat} {x : Float}
    (hrow : row.IsInteger i) (hcol : col.IsInteger j) (hvalue : value.IsEntry x) :
    Completes ⟨.set h row col value, .ok v⟩ ⟨h, i, j, x⟩

theorem MatrixEvent.Completes.unique {event : MatrixEvent} {e e' : Edit} (h : event.Completes e)
    (h' : event.Completes e') : e = e' := by
  obtain ⟨hrow, hcol, hvalue⟩ := h
  obtain ⟨hrow', hcol', hvalue'⟩ := h'
  rw [Int.natCast_inj.mp (hrow.unique hrow'), Int.natCast_inj.mp (hcol.unique hcol'),
    hvalue.unique hvalue']

theorem MatrixEvent.Completes.exists_eq_set {op : MatrixOperation} {r : Except Fault Value}
    {e : Edit} (h : Completes ⟨op, r⟩ e) : ∃ row col value, op = .set e.handle row col value := by
  generalize hevent : MatrixEvent.mk op r = event at h
  cases h
  cases hevent
  exact ⟨_, _, _, rfl⟩

namespace MatrixOperation.Effect

variable {s s' : Session} {op : MatrixOperation} {r : Except Fault Value} {k : Handle}
  (heffect : Effect s op r s')

include heffect

/-! ## What happens to the matrices that were there -/

/-- Without an edit, all that can happen to a store is that a matrix is added. -/
theorem extends_of_no_edit (hno : ∀ e, ¬MatrixEvent.Completes ⟨op, r⟩ e) :
    s'.store.Extends s.store := by
  cases heffect with
  | refused | observed => exact .refl _
  | made => exact s.store.extends_alloc _
  | edited hg =>
    obtain ⟨i, j, x, hi, hj, hx, -⟩ := Grid.set_eq_ok_iff.mp hg
    exact absurd (.set hi hj hx) (hno _)

/-- An edit that an operation completes is of a place that the matrix has. -/
theorem store_of_completes {e : Edit} (he : MatrixEvent.Completes ⟨op, r⟩ e) :
    s'.store = s.store.carryOut e ∧ e.row < (s.store.grid e.handle).rows ∧
      e.col < (s.store.grid e.handle).cols := by
  cases heffect with
  | refused | observed => cases he
  | made hop =>
    cases he
    cases hop
  | @edited h row col value g hg =>
    obtain ⟨i, j, x, hi, hj, hx, rfl⟩ := Grid.set_eq_ok_iff.mp hg
    -- indices and value tell the edit, so that it is the one that has been made
    obtain rfl := he.unique (.set hi hj hx)
    refine ⟨?_, i.isLt, j.isLt⟩
    dsimp only [Store.carryOut]
    rw [Grid.edit_fin]

theorem has (hk : s.store.Has k) : s'.store.Has k := by
  by_cases hedit : ∃ e, MatrixEvent.Completes ⟨op, r⟩ e
  · obtain ⟨e, he⟩ := hedit
    rw [(heffect.store_of_completes he).1, Store.Has, Store.carryOut, Store.size_put]
    exact hk
  · exact Nat.lt_of_lt_of_le hk (heffect.extends_of_no_edit (not_exists.mp hedit)).size_le

/-- A matrix that is there for the first time is the result. -/
theorem result_of_new (hold : ¬s.store.Has k) (hnew : s'.store.Has k) : r = .ok (.matrix k) := by
  cases heffect with
  | refused | observed => exact absurd hnew hold
  | made =>
    unfold Store.Has at hold hnew
    dsimp only [Store.alloc] at hnew ⊢
    rw [Array.size_push] at hnew
    obtain rfl : k = ⟨s.store.grids.size⟩ := congrArg Handle.mk (by omega)
    rfl
  | edited =>
    rw [Store.Has, Store.size_put] at hnew
    exact absurd hnew hold

section

variable (hk : s.store.Has k)

include hk

theorem grid_of_no_edit (hno : ∀ e, ¬MatrixEvent.Completes ⟨op, r⟩ e) :
    s'.store.grid k = s.store.grid k :=
  (heffect.extends_of_no_edit hno).grid hk

/-- A matrix is as before, or one of its entries has been set. -/
theorem grid_cases : s'.store.grid k = s.store.grid k ∨
    ∃ i j x, MatrixEvent.Completes ⟨op, r⟩ ⟨k, i, j, x⟩ ∧
      s'.store.grid k = (s.store.grid k).edit i j x := by
  by_cases hedit : ∃ e, MatrixEvent.Completes ⟨op, r⟩ e
  · obtain ⟨e, he⟩ := hedit
    rw [(heffect.store_of_completes he).1, Store.grid_carryOut]
    by_cases heq : e.handle = k
    · subst heq
      exact .inr ⟨e.row, e.col, e.value, he, if_pos ⟨rfl, hk⟩⟩
    · exact .inl (if_neg fun h ↦ heq h.1)
  · exact .inl (heffect.grid_of_no_edit hk (not_exists.mp hedit))

theorem rows_eq : (s'.store.grid k).rows = (s.store.grid k).rows := by
  obtain hsame | ⟨i, j, x, -, hedit⟩ := heffect.grid_cases hk
  · rw [hsame]
  · rw [hedit, Grid.rows_edit]

theorem cols_eq : (s'.store.grid k).cols = (s.store.grid k).cols := by
  obtain hsame | ⟨i, j, x, -, hedit⟩ := heffect.grid_cases hk
  · rw [hsame]
  · rw [hedit, Grid.cols_edit]

theorem cell?_of_no_edit {row col : Nat}
    (hno : ∀ x, ¬MatrixEvent.Completes ⟨op, r⟩ ⟨k, row, col, x⟩) :
    (s'.store.grid k).cell? row col = (s.store.grid k).cell? row col := by
  obtain hsame | ⟨i, j, x, he, hedit⟩ := heffect.grid_cases hk
  · rw [hsame]
  · rw [hedit, Grid.cell?_edit, if_neg]
    rintro ⟨rfl, rfl⟩
    exact hno x he

theorem cell?_of_edit {row col : Nat} {x : Float}
    (he : MatrixEvent.Completes ⟨op, r⟩ ⟨k, row, col, x⟩) :
    (s'.store.grid k).cell? row col = some x := by
  obtain ⟨hstore, hrow, hcol⟩ := heffect.store_of_completes he
  rw [hstore, Store.cell?_carryOut _ _ _ hk, if_pos ⟨rfl, rfl, rfl⟩, Grid.cell?,
    dif_pos ⟨hrow, hcol⟩]
  rfl

theorem cell?_eq {h : Handle} {i j : Nat} {x : Float}
    (he : MatrixEvent.Completes ⟨op, r⟩ ⟨h, i, j, x⟩) (row col : Nat) :
    (s'.store.grid k).cell? row col =
      if k = h ∧ row = i ∧ col = j then some x else (s.store.grid k).cell? row col := by
  split
  · rename_i heq
    obtain ⟨rfl, rfl, rfl⟩ := heq
    exact heffect.cell?_of_edit hk he
  · rename_i hne
    refine heffect.cell?_of_no_edit hk fun y hy ↦ hne ?_
    cases he.unique hy
    exact ⟨rfl, rfl, rfl⟩

end

theorem sound (hs : s.store.Sound) : s'.store.Sound := by
  cases heffect with
  | refused | observed => exact hs
  | made _ hg => exact hs.alloc (hg hs)
  | edited hg =>
    obtain ⟨i, j, x, -, -, hx, rfl⟩ := Grid.set_eq_ok_iff.mp hg
    exact hs.put _ ((hs.grid _).replace i j hx.isFinite)

omit heffect

/-! ## Results -/

theorem eq_of_error {fault : Fault} (h : Effect s op (.error fault) s') : s' = s := by
  cases h with
  | refused => rfl

theorem new_of_ok {v : Value} (h : Effect s op (.ok v) s') (hop : op.makes = true) :
    ∃ k, v = .matrix k ∧ ¬s.store.Has k ∧ s'.store.Has k := by
  cases h with
  | made =>
    refine ⟨_, rfl, Nat.lt_irrefl _, ?_⟩
    dsimp only [Store.Has, Store.alloc]
    rw [Array.size_push]
    exact Nat.lt_succ_self _
  | observed | edited => cases hop

theorem entry_of_ok {h : Handle} {row col : Datum} {v : Value}
    (heffect : Effect s (.get h row col) (.ok v) s') {i j : Nat} (hrow : row.IsInteger i)
    (hcol : col.IsInteger j) : ∃ x, v = .number x ∧ (s.store.grid h).cell? i j = some x := by
  cases heffect with
  | made hop => cases hop
  | observed hx =>
    obtain ⟨i', j', hrow', hcol', rfl⟩ := Grid.get_eq_ok_iff.mp hx
    rw [Int.natCast_inj.mp (hrow.unique hrow'), Int.natCast_inj.mp (hcol.unique hcol')]
    exact ⟨_, rfl, dif_pos ⟨i'.isLt, j'.isLt⟩⟩

theorem edit_of_ok {h : Handle} {row col value : Datum} {v : Value}
    (heffect : Effect s (.set h row col value) (.ok v) s') :
    v = .matrix h ∧ ∃ (i j : Nat) (x : Float), row.IsInteger i ∧ col.IsInteger j ∧
      value.IsEntry x := by
  cases heffect with
  | made hop => cases hop
  | edited hg =>
    obtain ⟨i, j, x, hrow, hcol, hx, -⟩ := Grid.set_eq_ok_iff.mp hg
    exact ⟨rfl, i, j, x, hrow, hcol, hx⟩

end MatrixOperation.Effect

namespace MatrixOperation

/-- What an operation does in a session with a sound store. -/
structure Contract (s : Session) (op : MatrixOperation) (r : Except Fault Value) (s' : Session) :
    Prop where
  /-- An operation that fails changes nothing. -/
  failed {fault : Fault} (h : r = .error fault) : s' = s
  /-- All matrices have entries, and these are finite. -/
  sound : s'.store.Sound
  /-- No operation changes the shape of a matrix. -/
  shape {k : Handle} (hk : s.store.Has k) : s'.store.Has k ∧
    (s'.store.grid k).rows = (s.store.grid k).rows ∧ (s'.store.grid k).cols = (s.store.grid k).cols
  /-- An operation other than `set` changes no matrix. -/
  other (hop : ∀ h row col value, op ≠ .set h row col value) {k : Handle} (hk : s.store.Has k) :
    s'.store.grid k = s.store.grid k
  /-- A matrix that is made is none of those that are there. -/
  made (hop : op.makes = true) {v : Value} (hv : r = .ok v) :
    ∃ k, v = .matrix k ∧ ¬s.store.Has k ∧ s'.store.Has k
  /-- A copy has the entries that the matrix has now. -/
  copy {h : Handle} (hop : op = .copy h) :
    ∃ k, r = .ok (.matrix k) ∧ s'.store.grid k = s.store.grid h
  /-- Reading an entry succeeds exactly if the indices are integers in the range of the matrix. -/
  get_ok {h : Handle} {row col : Datum} (hop : op = .get h row col) :
    (∃ v, r = .ok v) ↔ (s.store.grid h).HasPlace row col
  get {h : Handle} {row col : Datum} (hop : op = .get h row col) {v : Value} (hv : r = .ok v)
    {i j : Nat} (hrow : row.IsInteger i) (hcol : col.IsInteger j) :
    ∃ x, v = .number x ∧ (s.store.grid h).cell? i j = some x
  /-- Setting an entry asks for a finite number besides. -/
  set_ok {h : Handle} {row col value : Datum} (hop : op = .set h row col value) :
    (∃ v, r = .ok v) ↔ (s.store.grid h).HasPlace row col ∧ ∃ x, value.IsEntry x
  /-- Setting an entry changes this entry, and no other one of any matrix. -/
  set {h : Handle} {row col value : Datum} (hop : op = .set h row col value) {v : Value}
    (hv : r = .ok v) :
    v = .matrix h ∧ ∃ (i j : Nat) (x : Float), row.IsInteger i ∧ col.IsInteger j ∧
      value.IsEntry x ∧ ∀ {k : Handle}, s.store.Has k → ∀ a b, (s'.store.grid k).cell? a b =
        if k = h ∧ a = i ∧ b = j then some x else (s.store.grid k).cell? a b

theorem contract (op : MatrixOperation) {s : Session} (hs : s.store.Sound) :
    Contract s op (op.perform.run s).1 (op.perform.run s).2 where
  sound := (op.effect s).sound hs
  failed {fault} hfault := by
    have heffect := op.effect s
    rw [hfault] at heffect
    exact heffect.eq_of_error
  shape hk := ⟨(op.effect s).has hk, (op.effect s).rows_eq hk, (op.effect s).cols_eq hk⟩
  other hop k hk := by
    refine (op.effect s).grid_of_no_edit hk fun e he ↦ ?_
    obtain ⟨row, col, value, rfl⟩ := he.exists_eq_set
    exact hop _ _ _ _ rfl
  made hop v hv := by
    have heffect := op.effect s
    rw [hv] at heffect
    exact heffect.new_of_ok hop
  copy {h} hop := by
    have hrun : (copy h).perform.run s =
        (Run.lift (Grid.ofDatum (s.store.grid h).nested) >>= Run.newMatrix).run s := rfl
    rw [(hs.grid h).ofDatum_nested] at hrun
    rw [hop, hrun]
    exact ⟨_, rfl, Store.grid_alloc _ _⟩
  get_ok {h row col} hop := by
    subst hop
    unfold perform
    rw [run_get, ← Grid.exists_get_eq_ok_iff]
    cases (s.store.grid h).get row col <;> simp
  get {h row col} hop v hv i j hrow hcol := by
    have heffect := op.effect s
    rw [hv, hop] at heffect
    exact heffect.entry_of_ok hrow hcol
  set_ok {h row col value} hop := by
    subst hop
    unfold perform
    rw [Method.run_set, ← Grid.exists_set_eq_ok_iff]
    cases (s.store.grid h).set row col value <;> simp
  set {h row col value} hop v hv := by
    subst hop
    have heffect := (MatrixOperation.set h row col value).effect s
    rw [hv] at heffect
    obtain ⟨hresult, i, j, x, hrow, hcol, hx⟩ := heffect.edit_of_ok
    exact ⟨hresult, i, j, x, hrow, hcol, hx, fun hk ↦ heffect.cell?_eq hk (.set hrow hcol hx)⟩

end MatrixOperation

end WaveNotebook
