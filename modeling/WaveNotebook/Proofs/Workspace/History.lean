import WaveNotebook.Proofs.Workspace.Failure
import WaveNotebook.Proofs.Workspace.Concat
import WaveNotebook.Proofs.Workspace.Paired

/-!
# The history as a code

The history of a workspace is a code that makes the workspace again. Lines that are passed over or
fail are not in it, and each line is there without the blanks around it but with its comment.
Matrices that only such lines have made get lost, so the handles of the two workspaces differ, but
they can be paired. All that a failing line may have changed are entries of matrices that were
bound before, so sessions are looked at in which no failing line has done that.
-/

namespace WaveNotebook

namespace Workspace

/-- No failing line of the lines from a number on changes a matrix that is bound before it. -/
def FailCleanly (w : Workspace) (number : Nat) (raws : List (List Char)) : Prop :=
  ∀ done raw rest outs before fault w', raws = done ++ raw :: rest →
    w.run number done = (.ok outs, before) →
    before.step (number + done.length) raw = (.error fault, w') →
    ∀ name h, (name, .matrix h) ∈ before.scope.bindings →
      w'.session.store.grid h = before.session.store.grid h

/-- The workspaces of sessions from a new one on, in which no failing line changes a matrix. -/
inductive CleanSession (config : Config) : Workspace → Prop
  | new : CleanSession config (new config .standard)
  | execute {w} (hw : CleanSession config w) (code : List Char)
    (h : w.FailCleanly 1 (lines code)) : CleanSession config (w.execute code).2

/-- The same names with equal values in the same order, where matrices are equal by their entries
and shared by the same names, and the same history. -/
structure SameState (w w' : Workspace) : Prop where
  names : w'.names = w.names
  values : ∀ name, Option.Rel
    (Value.Paired fun h k ↦ w.session.store.grid h = w'.session.store.grid k)
    (w.scope.bindings.lookup name) (w'.scope.bindings.lookup name)
  sharing : ∀ name₁ name₂ h₁ h₂ k₁ k₂,
    w.scope.bindings.lookup name₁ = some (.matrix h₁) →
    w.scope.bindings.lookup name₂ = some (.matrix h₂) →
    w'.scope.bindings.lookup name₁ = some (.matrix k₁) →
    w'.scope.bindings.lookup name₂ = some (.matrix k₂) → (h₁ = h₂ ↔ k₁ = k₂)
  history : w'.history = w.history

/-- The lines of the history. -/
def logged (w : Workspace) : List (List Char) :=
  w.history.map String.toList

variable {R : Pairing} {w w' w₁ : Workspace} {config : Config}

/-! ## Paired workspaces have the same state -/

theorem Paired.sameState (h : w.Paired R w') (hhistory : w'.history = w.history) :
    SameState w w' where
  names := h.scope.bindings.keys_eq
  values name := by
    have hle : R ≤ fun h k ↦ w.session.store.grid h = w'.session.store.grid k :=
      fun _ _ hR ↦ h.store.same hR
    exact (h.scope.bindings.mono hle).lookup name
  sharing name₁ name₂ h₁ h₂ k₁ k₂ hh₁ hh₂ hk₁ hk₂ := by
    have hpair : ∀ {name h' k'}, w.scope.bindings.lookup name = some (.matrix h') →
        w'.scope.bindings.lookup name = some (.matrix k') → R h' k' := by
      intro name h' k' hh hk
      have hlookup := h.scope.bindings.lookup name
      rw [hh, hk] at hlookup
      cases hlookup with
      | some hv =>
        cases hv with
        | matrix hR => exact hR
    exact h.store.unique (hpair hh₁ hk₁) (hpair hh₂ hk₂)
  history := hhistory

/-! ## A line and its entry in the history -/

theorem history_assign (w : Workspace) (target : Option String) (v : Value) :
    (w.assign target v).history = w.history := by
  cases target <;> rfl

theorem Paired.remember (h : w.Paired R w') (raw : List Char) :
    (w.remember raw).Paired R (w'.remember raw) :=
  ⟨h.scope, h.store⟩

/-- A line that is done is done in a paired workspace as well, without the blanks around it. -/
theorem Paired.step (h : w.Paired R w') {number : Nat} {raw out : List Char}
    (hstep : w.step number raw = (.ok (some out), w₁)) (number' : Nat) :
    ∃ out' w₁' R', w'.step number' (Text.trim raw) = (.ok (some out'), w₁') ∧
      w₁.Paired R' w₁' ∧ w₁.history = w.history ++ [String.ofList (Text.trim raw)] ∧
      w₁'.history = w'.history ++ [String.ofList (Text.trim raw)] := by
  cases w.step_cases number raw with
  | passed _ hstep' => cases hstep.symm.trans hstep'
  | malformed _ _ hstep' => cases hstep.symm.trans hstep'
  | failed _ _ _ hstep' => cases hstep.symm.trans hstep'
  | @done hpassed target expression v w₂ hline hvalue hstep' =>
    cases hstep.symm.trans hstep'
    obtain ⟨v', w₂', R', hvalue', hpaired, hv⟩ := h.evaluate hvalue
    have hpassed' : ¬w'.Passed (Text.trim raw) := mt (h.passed_iff raw).mp hpassed
    have hline' : assignment (w'.code (Text.trim raw)) = .ok (target, expression) := by
      rw [h.code_eq, hline]
    have hentry : w'.step number' (Text.trim raw) = _ := step_of_not_passed hpassed' number'
    rw [statement_of_evaluate_ok hline' hvalue', Text.trim_trim] at hentry
    refine ⟨_, _, R', hentry, (hpaired.assign target hv).remember raw, ?_, ?_⟩
    · rw [Workspace.remember, history_assign, (frame_of_evaluate hvalue).2]
    · dsimp only
      rw [history_assign, (frame_of_evaluate hvalue').2]

/-- A line that fails without changes to bound matrices keeps workspaces paired, as far as the
bindings reach. -/
theorem Paired.of_step_error (h : w.Paired R w') (hw : w.Sound) {number : Nat} {raw : List Char}
    {fault : Fault} (hstep : w.step number raw = (.error fault, w₁))
    (hsame : ∀ name h, (name, .matrix h) ∈ w.scope.bindings →
      w₁.session.store.grid h = w.session.store.grid h) :
    ∃ R', w₁.Paired R' w' := by
  obtain ⟨houtcome, -⟩ := hw.step number raw
  rw [hstep] at houtcome
  cases houtcome with
  | failed hpassed hfails =>
    have hstore := hw.step_store hpassed number
    rw [hstep] at hstore
    have hsize : w.session.store.grids.size ≤ w₁.session.store.grids.size := by
      rw [← w.session.store.size_replay (w.edits raw)]
      exact hstore.size_le
    -- pairs of matrices that no name stands for are given up
    refine ⟨fun a b ↦ R a b ∧ ∃ name, (name, .matrix a) ∈ w.scope.bindings, ?_, ?_⟩
    · rw [hfails.scope]
      exact ⟨h.scope.config, h.scope.standard, h.scope.standard', h.scope.bindings.restrict⟩
    · exact h.store.restrict (fun _ _ hR ↦ hR.1) hsize
        fun a b ⟨_, name, hbound⟩ ↦ hsame name a hbound

/-! ## The run of the history -/

/-- The state of a session, and that of the run of its history so far. -/
structure Replayed (config : Config) (w : Workspace) : Prop where
  sound : w.Sound
  lines : ∀ raw ∈ w.logged, '\n' ∉ raw
  run : ∃ outs w' R, (new config .standard).run 1 w.logged = (.ok outs, w') ∧ w.Paired R w' ∧
    w'.history = w.history

theorem replayed_new (config : Config) : Replayed config (new config .standard) where
  sound := sound_new config
  lines _ hraw := nomatch hraw
  run := ⟨[], _, fun _ _ ↦ False, rfl, ⟨⟨rfl, rfl, rfl, .nil⟩, Store.paired_empty⟩, rfl⟩

theorem Replayed.step_ok (h : Replayed config w) {number : Nat} {raw : List Char}
    (hraw : '\n' ∉ raw) {out : Option (List Char)}
    (hstep : w.step number raw = (.ok out, w₁)) : Replayed config w₁ := by
  obtain ⟨houtcome, hsound⟩ := h.sound.step number raw
  rw [hstep] at houtcome hsound
  cases houtcome with
  | passed _ => exact h
  | done _ _ =>
    obtain ⟨outs, w', R, hrun, hpaired, hhistory⟩ := h.run
    -- in the run of the history, the line comes behind those that are logged already
    obtain ⟨out', w₁', R', hstep', hpaired', hlog, hlog'⟩ :=
      hpaired.step hstep (1 + w.logged.length)
    have hlogged : w₁.logged = w.logged ++ [Text.trim raw] := by
      rw [logged, hlog, List.map_append, List.map_singleton, String.toList_ofList]
      rfl
    refine ⟨hsound, ?_, outs ++ [out'], w₁', R', ?_, hpaired', ?_⟩
    · rw [hlogged, List.forall_mem_append, List.forall_mem_singleton]
      exact ⟨h.lines, fun hmem ↦ hraw (Text.mem_of_mem_trim hmem)⟩
    · calc
        _ = ((w'.run (1 + w.logged.length) [Text.trim raw]).1.map (outs ++ ·),
            (w'.run (1 + w.logged.length) [Text.trim raw]).2) := by
          rw [hlogged, run_append, hrun]
        _ = (.ok (outs ++ [out']), w₁') := by
          rw [run_cons_ok hstep']
          rfl
    · rw [hlog, hlog', hhistory]

theorem Replayed.step_error (h : Replayed config w) {number : Nat} {raw : List Char}
    {fault : Fault} (hstep : w.step number raw = (.error fault, w₁))
    (hsame : ∀ name h, (name, .matrix h) ∈ w.scope.bindings →
      w₁.session.store.grid h = w.session.store.grid h) : Replayed config w₁ := by
  obtain ⟨houtcome, hsound⟩ := h.sound.step number raw
  obtain ⟨outs, w', R, hrun, hpaired, hhistory⟩ := h.run
  obtain ⟨R', hpaired'⟩ := hpaired.of_step_error h.sound hstep hsame
  rw [hstep] at houtcome hsound
  cases houtcome with
  | failed _ hfails =>
    have hlogged : w₁.logged = w.logged := congrArg (List.map String.toList) hfails.history
    refine ⟨hsound, ?_, outs, w', R', ?_, hpaired', ?_⟩
    · rw [hlogged]
      exact h.lines
    · rw [hlogged, hrun]
    · rw [hhistory, hfails.history]

theorem FailCleanly.of_cons {number : Nat} {raw : List Char} {rest : List (List Char)}
    (h : w.FailCleanly number (raw :: rest)) {out : Option (List Char)}
    (hstep : w.step number raw = (.ok out, w₁)) : w₁.FailCleanly (number + 1) rest := by
  rintro done raw' rest' outs before fault w' rfl hdone hfail
  refine h (raw :: done) raw' rest' (out.toList ++ outs) before fault w' rfl ?_ ?_
  · rw [run_cons_ok hstep, hdone]
    rfl
  · rw [List.length_cons, Nat.add_comm done.length, ← Nat.add_assoc]
    exact hfail

theorem Replayed.run_lines (h : Replayed config w) {number : Nat} {raws : List (List Char)}
    (hraws : ∀ raw ∈ raws, '\n' ∉ raw) (hclean : w.FailCleanly number raws) :
    Replayed config (w.run number raws).2 := by
  induction raws generalizing w number with
  | nil => exact h
  | cons raw rest ih =>
    rw [List.forall_mem_cons] at hraws
    cases hstep : w.step number raw with
    | mk r w₁ =>
      cases r with
      | error fault =>
        rw [run_cons_error hstep]
        exact h.step_error hstep (hclean [] raw rest [] w fault w₁ rfl rfl hstep)
      | ok out =>
        rw [run_cons_ok hstep]
        exact ih (h.step_ok hraws.1 hstep) hraws.2 (hclean.of_cons hstep)

theorem CleanSession.replayed (hw : CleanSession config w) : Replayed config w := by
  induction hw with
  | new => exact replayed_new config
  | execute hw code h ih => exact ih.run_lines (not_mem_of_mem_lines code) h

/-- A history without entries is one blank line, which is passed over. -/
theorem run_lines_joinWith (w : Workspace) {raws : List (List Char)}
    (h : ∀ raw ∈ raws, '\n' ∉ raw) :
    w.run 1 (lines (joinWith '\n' raws)) = w.run 1 raws := by
  cases raws with
  | nil =>
    have hblank : w.step 1 [] = (.ok none, w) := step_of_passed (.inl rfl) 1
    change w.run 1 [[]] = w.run 1 []
    rw [run_cons_ok hblank]
    rfl
  | cons raw rest => rw [lines_joinWith (List.cons_ne_nil _ _) h]

/-! ## Sessions that fail cleanly -/

/-- No line of a run that succeeds fails. -/
theorem failCleanly_of_isOk {number : Nat} {raws : List (List Char)}
    (h : (w.run number raws).1.isOk = true) : w.FailCleanly number raws := by
  rintro done raw rest outs before fault w₁ rfl hdone hfail
  rw [run_append, hdone] at h
  dsimp only at h
  rw [run_cons_error hfail] at h
  cases h

/-- A single line without completed calls of `set` changes no bound matrix, if it fails. -/
theorem Sound.failCleanly_line (hw : w.Sound) {raw : List Char} (hedits : w.edits raw = [])
    (number : Nat) : w.FailCleanly number [raw] := by
  intro done raw' rest outs before fault w₁ hraws hdone hfail name h hbound
  cases done with
  | nil =>
    cases hraws
    cases hdone
    exact hw.grid_of_step_error hedits hfail hbound
  | cons first done =>
    have hnil : done ++ raw' :: rest = [] := (List.cons.inj hraws).2.symm
    cases done <;> cases hnil

/-! ## Histories -/

/-- The history of a session makes its workspace again, if no failing line of the session has
changed a matrix: as one code, it succeeds on a new workspace, and binds the same names to equal
values in the same order, with the same matrices shared. -/
theorem CleanSession.execute_history (hw : CleanSession config w) :
    ∃ out w', (Workspace.new config .standard).execute (joinWith '\n' w.logged) = (.ok out, w') ∧
      SameState w w' := by
  have h := hw.replayed
  obtain ⟨outs, w', R, hrun, hpaired, hhistory⟩ := h.run
  refine ⟨Text.trimRight (joinWith '\n' outs), w', ?_, hpaired.sameState hhistory⟩
  have hlines := run_lines_joinWith (Workspace.new config .standard) h.lines
  rw [Workspace.execute_eq, hlines, hrun]
  rfl

/-- A workspace with two names for one matrix. -/
def twoNames : Workspace :=
  ((new .default .standard).execute "m = matrix([[1]])\nn = m".toList).2

/-- A line that makes a matrix before it fails, since an index must be a number. -/
def strayMatrix : List Char := "k = m.get(matrix([[5]]), 0)".toList

/-- Two names and a third one, whose matrix comes behind the stray one. -/
def threeNames : Workspace :=
  (((twoNames.execute strayMatrix).2).execute "p = matrix([[7]])\nn.set(0, 0, 2)".toList).2

theorem cleanSession_threeNames : CleanSession .default threeNames := by
  have htwo : CleanSession .default twoNames :=
    .execute .new _ (failCleanly_of_isOk (by decide +kernel))
  have hstray : twoNames.FailCleanly 1 (lines strayMatrix) := by
    have hedits : twoNames.edits strayMatrix = [] := List.isEmpty_iff.mp (by decide +kernel)
    rw [lines_of_not_mem (by decide +kernel)]
    exact htwo.replayed.sound.failCleanly_line hedits 1
  exact .execute (.execute htwo _ hstray) _ (failCleanly_of_isOk (by decide +kernel))

/-- The failing line is not in the history, and what it has made is not missed. -/
theorem execute_history_threeNames :
    (twoNames.execute strayMatrix).1.isOk = false ∧
      threeNames.history = ["m = matrix([[1]])", "n = m", "p = matrix([[7]])", "n.set(0, 0, 2)"] ∧
      ∃ out w', (new .default .standard).execute (joinWith '\n' threeNames.logged) =
        (.ok out, w') ∧ SameState threeNames w' :=
  ⟨by decide +kernel, by decide +kernel, CleanSession.execute_history cleanSession_threeNames⟩

end Workspace

end WaveNotebook
