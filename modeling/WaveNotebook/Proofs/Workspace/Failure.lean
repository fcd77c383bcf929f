import WaveNotebook.Proofs.Workspace.Run

/-!
# Matrices behind a failing line

A failing line binds nothing, but nothing is taken back either: a call of `set` among the
arguments that was completed before the failure has edited its matrix for good. Every matrix
keeps its dimensions, and each entry is the number that the last completed `set` gave it, or else
the entry from before the line.
-/

namespace WaveNotebook

/-- The handle of a matrix. -/
def Value.handle? : Value → Option Handle
  | matrix h => some h
  | _ => none

theorem Value.eq_of_handle? {v : Value} {h : Handle} (hv : v.handle? = some h) :
    v = .matrix h := by
  cases v with
  | matrix k => rw [Option.some.inj hv]
  | _ => cases hv

namespace Workspace

/-- The edits of the completed calls of `set` in a line, in the order of their completion. -/
def edits (w : Workspace) (raw : List Char) : List Edit :=
  match assignment (w.code raw) with
  | .ok (_, expression) => (Expr.read expression).edits w.scope w.session
  | .error _ => []

/-- What became of the matrix with a handle under edits. -/
structure EditedBy (edits : List Edit) (h : Handle) (before after : Store Float) : Prop where
  rows : (after.grid h).rows = (before.grid h).rows
  cols : (after.grid h).cols = (before.grid h).cols
  /-- The last edit of a place decides its entry. -/
  entry : ∀ row col, (after.grid h).cell? row col =
    ((before.grid h).cell? row col).map fun x ↦ (Edit.last? edits h row col).getD x
  /-- Without edits the matrix is what it was. -/
  same : (∀ e ∈ edits, e.handle ≠ h) → after.grid h = before.grid h

theorem editedBy_of_extends {edits : List Edit} {h : Handle} {before after : Store Float}
    (hext : after.Extends (before.replay edits)) (hsize : h.index < before.grids.size) :
    EditedBy edits h before after := by
  have hgrid : after.grid h = (before.replay edits).grid h :=
    hext.grid (by rwa [before.size_replay])
  refine ⟨?_, ?_, fun row col ↦ ?_, fun hne ↦ ?_⟩
  · rw [hgrid, before.rows_replay]
  · rw [hgrid, before.cols_replay]
  · rw [hgrid, before.cell?_replay edits h hsize]
  · rw [hgrid, before.grid_replay_of_ne hne]

variable {w : Workspace}

/-- A line, also a failing one, carries out its edits and adds matrices, and that is all. -/
theorem Sound.step_store (hw : w.Sound) {raw : List Char} (h : ¬w.Passed raw) (number : Nat) :
    (w.step number raw).2.session.store.Extends (w.session.store.replay (w.edits raw)) := by
  have hevaluate : ∀ expression, (w.evaluate expression).2.session.store.Extends
      (w.session.store.replay ((Expr.read expression).edits w.scope w.session)) :=
    fun expression ↦ (hw.evaluate_performs expression).store
  cases w.step_cases number raw with
  | passed hpassed => exact absurd hpassed h
  | malformed _ hline hstep =>
    rw [hstep, edits, hline]
    exact .refl _
  | @failed _ _ expression _ _ hline hvalue hstep =>
    have hstore := hevaluate expression
    rw [hvalue] at hstore
    rw [hstep, edits, hline]
    exact hstore
  | @done _ target expression _ _ hline hvalue hstep =>
    have hstore := hevaluate expression
    rw [hvalue] at hstore
    rw [hstep, edits, hline]
    cases target <;> exact hstore

/-- The matrices that are bound before a failing line, after it. -/
theorem Sound.matrices_of_step_error (hw : w.Sound) {number : Nat} {raw : List Char}
    {fault : Fault} {w' : Workspace} (hstep : w.step number raw = (.error fault, w'))
    {name : String} {h : Handle} (hbound : (name, .matrix h) ∈ w.scope.bindings) :
    EditedBy (w.edits raw) h w.session.store w'.session.store := by
  have hpassed : ¬w.Passed raw := by
    intro hpassed
    rw [step_of_passed hpassed] at hstep
    cases hstep
  have hstore := hw.step_store hpassed number
  rw [hstep] at hstore
  exact editedBy_of_extends hstore (hw.scope.bound _ hbound)

/-- A failing line that edits nothing leaves the matrices as they were. -/
theorem Sound.grid_of_step_error (hw : w.Sound) {number : Nat} {raw : List Char}
    (hedits : w.edits raw = []) {fault : Fault} {w' : Workspace}
    (hstep : w.step number raw = (.error fault, w')) {name : String} {h : Handle}
    (hbound : (name, .matrix h) ∈ w.scope.bindings) :
    w'.session.store.grid h = w.session.store.grid h := by
  have hedited := hw.matrices_of_step_error hstep hbound
  rw [hedits] at hedited
  exact hedited.same fun _ he ↦ nomatch he

/-- A failing run fails at one of its lines, in the workspace that the lines before it leave. -/
theorem exists_step_of_run_error {number : Nat} {raws : List (List Char)} {fault : Fault}
    {w' : Workspace} (hrun : w.run number raws = (.error fault, w')) :
    ∃ done raw rest outs before, raws = done ++ raw :: rest ∧
      w.run number done = (.ok outs, before) ∧
      before.step (number + done.length) raw = (.error fault, w') := by
  induction raws generalizing w number with
  | nil => cases hrun
  | cons raw rest ih =>
    cases hstep : w.step number raw with
    | mk r w₁ =>
      cases r with
      | error fault =>
        rw [run_cons_error hstep] at hrun
        cases hrun
        exact ⟨[], raw, rest, [], w, rfl, rfl, hstep⟩
      | ok out =>
        rw [run_cons_ok hstep] at hrun
        cases hrest : w₁.run (number + 1) rest with
        | mk r w₂ =>
          rw [hrest] at hrun
          cases r with
          | ok outs => cases hrun
          | error fault =>
            cases hrun
            obtain ⟨done, raw', rest', outs, before, rfl, hdone, hfail⟩ := ih hrest
            refine ⟨raw :: done, raw', rest', out.toList ++ outs, before, rfl, ?_, ?_⟩
            · rw [run_cons_ok hstep, hdone]
              rfl
            · rw [List.length_cons, Nat.add_comm done.length, ← Nat.add_assoc]
              exact hfail

/-- A call that fails has a failing line, and every matrix that is bound before that line keeps
its dimensions and all entries but those that completed calls of `set` in the line overwrote. -/
theorem Reachable.matrices_of_execute_error (hw : Reachable w) {code : List Char} {fault : Fault}
    {w' : Workspace} (hfail : w.execute code = (.error fault, w')) :
    ∃ done raw rest outs before, lines code = done ++ raw :: rest ∧
      w.run 1 done = (.ok outs, before) ∧
      before.step (1 + done.length) raw = (.error fault, w') ∧
      ∀ name h, (name, .matrix h) ∈ before.scope.bindings →
        EditedBy (before.edits raw) h before.session.store w'.session.store := by
  have hrun := hw.sound.execute_error_iff.mp hfail
  obtain ⟨done, raw, rest, outs, before, hlines, hdone, hstep⟩ := exists_step_of_run_error hrun
  have hbefore := (hw.sound.run 1 done).2
  rw [hdone] at hbefore
  exact ⟨done, raw, rest, outs, before, hlines, hdone, hstep,
    fun _ _ hbound ↦ hbefore.matrices_of_step_error hstep hbound⟩

/-- A workspace in which a matrix is bound. -/
def oneMatrix : Workspace :=
  ((new .default .standard).execute "m = matrix([[1]])".toList).2

/-- A line that edits the matrix before it fails, since an index must be a number. -/
def nestedSet : List Char := "m.get(m.set(0, 0, 9), 0)".toList

theorem reachable_oneMatrix : Reachable oneMatrix :=
  .execute (.new Config.accepted_default) _

theorem execute_nestedSet :
    ∃ fault, oneMatrix.execute nestedSet = (.error fault, (oneMatrix.execute nestedSet).2) :=
  error_of_toOption (by decide +kernel)

/-- Behind the line, the entry of the matrix is the number of the completed `set`. -/
theorem matrices_of_nestedSet :
    (oneMatrix.edits nestedSet).map (fun e ↦ (e.handle, e.row, e.col, e.value)) =
        [(⟨0⟩, 0, 0, 9.0)] ∧
      ∃ done raw rest outs before, lines nestedSet = done ++ raw :: rest ∧
        oneMatrix.run 1 done = (.ok outs, before) ∧
        (∃ fault, before.step (1 + done.length) raw =
          (.error fault, (oneMatrix.execute nestedSet).2)) ∧
        ∀ name h, (name, .matrix h) ∈ before.scope.bindings →
          EditedBy (before.edits raw) h before.session.store
            (oneMatrix.execute nestedSet).2.session.store := by
  refine ⟨by decide +kernel, ?_⟩
  obtain ⟨fault, hfail⟩ := execute_nestedSet
  obtain ⟨done, raw, rest, outs, before, hlines, hdone, hstep, hedited⟩ :=
    Reachable.matrices_of_execute_error reachable_oneMatrix hfail
  exact ⟨done, raw, rest, outs, before, hlines, hdone, ⟨fault, hstep⟩, hedited⟩

/-- A failing line does not leave every matrix as it was. -/
theorem not_matrices_same_of_error :
    ¬∀ w, Reachable w → ∀ line fault w', '\n' ∉ line → w.execute line = (.error fault, w') →
      ∀ name h, (name, .matrix h) ∈ w.scope.bindings →
        w'.session.store.grid h = w.session.store.grid h := by
  intro hsame
  obtain ⟨fault, hfail⟩ := execute_nestedSet
  have hbound : ("m", .matrix ⟨0⟩) ∈ oneMatrix.scope.bindings := by
    have hhandle : ("m", some ⟨0⟩) ∈
        oneMatrix.scope.bindings.map fun binding ↦ (binding.1, binding.2.handle?) := by
      decide +kernel
    obtain ⟨⟨name, v⟩, hbinding, heq⟩ := List.mem_map.mp hhandle
    obtain ⟨rfl, hv⟩ := Prod.mk.inj heq
    have hmatrix : v = .matrix ⟨0⟩ := Value.eq_of_handle? hv
    rwa [hmatrix] at hbinding
  have hgrid := hsame oneMatrix reachable_oneMatrix nestedSet fault _ (by decide +kernel) hfail
    "m" ⟨0⟩ hbound
  have hbefore : (oneMatrix.session.store.grid ⟨0⟩).toRows = [[1.0]] := by decide +kernel
  have hafter : ((oneMatrix.execute nestedSet).2.session.store.grid ⟨0⟩).toRows = [[9.0]] := by
    decide +kernel
  rw [hgrid, hbefore] at hafter
  exact absurd hafter (by decide +kernel)

end Workspace

end WaveNotebook
