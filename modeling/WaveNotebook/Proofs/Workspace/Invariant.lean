import WaveNotebook.Proofs.Workspace.Run

/-!
# The invariant of values

What holds of the names and values of every workspace of a notebook session: of names that
evaluate to matrices, of signals that are bound by themselves or among modes, and so on. It is
read off from the soundness of the workspace.
-/

namespace WaveNotebook

/-- A matrix that is a rectangle of finite numbers with at least one row and one column. -/
structure Grid.Proper (g : Grid Float) : Prop where
  rows_pos : 0 < g.rows
  cols_pos : 0 < g.cols
  rows_length : g.toRows.length = g.rows
  rectangular : ∀ row ∈ g.toRows, row.length = g.cols
  finite : ∀ row ∈ g.toRows, ∀ x ∈ row, isFinite x = true

theorem Grid.Sound.proper {g : Grid Float} (hg : g.Sound) : g.Proper where
  rows_pos := hg.rows_pos
  cols_pos := hg.cols_pos
  rows_length := by rw [toRows, List.length_map, Vector.length_toList]
  rectangular row hrow := by
    obtain ⟨cells, -, rfl⟩ := List.mem_map.mp hrow
    exact Vector.length_toList ..
  finite row hrow x hx := by
    obtain ⟨cells, hcells, rfl⟩ := List.mem_map.mp hrow
    obtain ⟨i, hi, rfl⟩ := Vector.getElem_of_mem (Vector.mem_toList_iff.mp hcells)
    obtain ⟨j, hj, rfl⟩ := Vector.getElem_of_mem (Vector.mem_toList_iff.mp hx)
    exact hg.finite ⟨i, hi⟩ ⟨j, hj⟩

theorem ValueKind.mem_all (kind : ValueKind) : kind ∈ all := by
  cases kind <;> decide

namespace Workspace

/-- What a name of a notebook looks like. -/
def LegalName (name : String) : Prop :=
  ∃ c cs, name.toList = c :: cs ∧ (c.isAlpha = true ∨ c = '_') ∧
    ∀ d ∈ cs, d.isAlphanum = true ∨ d = '_'

theorem legalName_of_isPlainName {name : String} (h : Text.isPlainName name.toList = true) :
    LegalName name := by
  unfold LegalName
  cases hname : name.toList with
  | nil =>
    rw [hname] at h
    cases h
  | cons c cs =>
    rw [hname] at h
    simp only [Text.isPlainName, Text.isPlainStart, Text.isPlainPart, Bool.and_eq_true,
      Bool.or_eq_true, beq_iff_eq, List.all_eq_true] at h
    exact ⟨c, cs, rfl, h.1, h.2⟩

structure Lawful (w : Workspace) : Prop where
  /-- Names are legal and bound once. -/
  names : (∀ name ∈ w.names, LegalName name) ∧ w.names.Nodup
  /-- Every value is of one of the kinds. -/
  kinds : ∀ binding ∈ w.scope.bindings, binding.2.kind ∈ ValueKind.all
  signals : ∀ name s, (name, .signal s) ∈ w.scope.bindings →
    (∀ x ∈ s.samples, isFinite x = true) ∧ isFinite s.rate = true ∧ 0.0 < s.rate
  matrices : ∀ name h, (name, .matrix h) ∈ w.scope.bindings →
    h.index < w.session.store.grids.size ∧ (w.session.store.grid h).Proper
  modes : ∀ name signals, (name, .modes signals) ∈ w.scope.bindings →
    signals ≠ [] ∧
      (∀ s ∈ signals, (∀ x ∈ s.samples, isFinite x = true) ∧ isFinite s.rate = true ∧
        0.0 < s.rate) ∧
      ∀ s ∈ signals, ∀ t ∈ signals, s.size = t.size ∧ s.rate = t.rate
  metrics : ∀ name values, (name, .metrics values) ∈ w.scope.bindings →
    (∀ entry ∈ values, entry.1 ∈ ["rms", "peak", "crest", "kurtosis"]) ∧
      (values.map (·.1)).Nodup
  /-- Also matrices without a name are proper. -/
  store : ∀ g ∈ w.session.store.grids, g.Proper
  /-- A name that is not bound stands for what it stands for in a new workspace. -/
  builtins : ∀ name, name ∉ w.names →
    w.value? name = (new w.scope.config .standard).value? name
  /-- A function that is bound is one of the builtins. -/
  functions : ∀ name b, (name, .function b) ∈ w.scope.bindings → b ∈ Builtin.standard

theorem value?_of_not_mem {w : Workspace} {name : String} (h : name ∉ w.names) :
    w.value? name = (Scope.builtin? name).map .function := by
  have hnone : w.scope.bindings.lookup name = none := by
    rw [List.lookup_eq_none_iff]
    intro binding hbinding
    rw [bne_iff_ne]
    rintro rfl
    exact h (List.mem_map_of_mem hbinding)
  rw [value?, Scope.resolve, hnone, Option.none_or]

/-- The invariant of values, in every workspace of a notebook session. -/
theorem Reachable.lawful {w : Workspace} (hw : Reachable w) : w.Lawful where
  names :=
    ⟨fun name hname ↦ legalName_of_isPlainName (hw.sound.plain name hname), hw.sound.nodup⟩
  kinds binding _ := ValueKind.mem_all _
  signals name s hs := by
    have hsound : s.Sound := hw.sound.scope.bound _ hs
    exact ⟨hsound.finite, hsound.rate_finite, hsound.rate_pos⟩
  matrices name h hh :=
    ⟨hw.sound.scope.bound _ hh, (hw.sound.store.grid h).proper⟩
  modes name signals hsignals := by
    have hsound : SoundModes signals := hw.sound.scope.bound _ hsignals
    refine ⟨hsound.nonempty, fun s hs ↦ ?_, hsound.alike⟩
    have hsignal := hsound.sound s hs
    exact ⟨hsignal.finite, hsignal.rate_finite, hsignal.rate_pos⟩
  metrics name values hvalues := by
    have hsound : SoundMetrics values := hw.sound.scope.bound _ hvalues
    exact ⟨fun entry hentry ↦ hsound.known _ (List.mem_map_of_mem hentry), hsound.nodup⟩
  store g hg := (hw.sound.store g hg).proper
  builtins name hname := by
    rw [value?_of_not_mem hname, value?_of_not_mem List.not_mem_nil]
  functions name b hb := hw.sound.scope.bound _ hb

/-- The invariant behind a code that binds a matrix and a signal and then fails. -/
theorem lawful_execute_new :
    ((new .default .standard).execute
      "m = matrix([[1]])\ns = sine(1, 0.001)\nf(m)".toList).2.Lawful :=
  Reachable.lawful (.execute (.new Config.accepted_default) _)

end Workspace

end WaveNotebook
