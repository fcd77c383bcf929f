import WaveNotebook.Proofs.Workspace.Room

/-!
# Sound workspaces

A workspace is sound if its matrices and bound values are sound, and its names are plain ones
without repetition. A new workspace is sound, and evaluation, statements, lines and whole codes
keep a workspace sound, also if they fail or run out of frames.
-/

namespace WaveNotebook

/-- A workspace with the standard methods, whose matrices, values and names obey the rules. -/
structure Workspace.Sound (w : Workspace) : Prop where
  store : w.session.store.Sound
  scope : w.scope.Sound w.session.store
  nodup : w.names.Nodup
  plain : ∀ name ∈ w.names, Text.isPlainName name.toList = true

namespace Workspace

variable {w : Workspace}

theorem names_bind (w : Workspace) (name : String) (v : Value) :
    (w.bind name v).names = if name ∈ w.names then w.names else w.names ++ [name] :=
  Record.keys_put _ _ _

theorem sound_new (config : Config) : (new config .standard).Sound where
  store := Store.sound_empty
  scope := ⟨rfl, fun _ h ↦ nomatch h⟩
  nodup := List.nodup_nil
  plain _ h := nomatch h

namespace Sound

variable (hw : w.Sound)

include hw

theorem evaluate_performs (text : List Char) :
    Run.Performs ((Expr.read text).edits w.scope w.session) w.session Value.Sound
      ((Expr.read text).value w.scope) := by
  refine (Expr.value_performs hw.store hw.scope _).weaken fun fault hfault ↦ ?_
  rw [Expr.whole_read] at hfault
  exact hfault.resolve_right fun h ↦ nomatch h.1

theorem evaluate_yields (text : List Char) :
    Yields (Value.Sound (w.evaluate text).2.session.store) (w.evaluate text).1 :=
  (hw.evaluate_performs text).ends

theorem evaluate (text : List Char) (room : Option Nat := none) :
    (w.evaluate text room).2.Sound :=
  have hperforms := Expr.value_performs hw.store hw.scope ((Expr.read text).limited w.scope room)
  ⟨hperforms.sound, hw.scope.mono hperforms.size_le, hw.nodup, hw.plain⟩

theorem bind {name : String} {v : Value} (hname : Text.isPlainName name.toList = true)
    (hv : v.Sound w.session.store) : (w.bind name v).Sound where
  store := hw.store
  scope := by
    refine ⟨hw.scope.standard, fun binding hbinding ↦ ?_⟩
    obtain rfl | hbinding := Record.mem_put hbinding
    · exact hv
    · exact hw.scope.bound binding hbinding
  nodup := Record.nodup_keys_put hw.nodup name v
  plain name' hname' := by
    obtain rfl | hname' := Record.mem_keys_put.mp hname'
    · exact hname
    · exact hw.plain name' hname'

/-- History is not a part of the rules. -/
theorem remember (history : List String) : { w with history := history }.Sound :=
  ⟨hw.store, hw.scope, hw.nodup, hw.plain⟩

end Sound

/-! ## Statements -/

/-- An assignment has a plain name, and every fault of its form is expected. -/
theorem assignment_yields (line : List Char) :
    Yields (fun p ↦ ∀ name, p.1 = some name → Text.isPlainName name.toList = true)
      (assignment line) := by
  unfold assignment
  split
  · rename_i fault h
    cases hsplit : Scan.splitTopLevel '=' line with
    | error f =>
      rw [hsplit] at h
      cases h
      exact .error rfl
    | ok pieces =>
      rw [hsplit] at h
      cases h
  · dsimp only
    split
    · exact .error rfl
    · split
      · exact .error rfl
      · rename_i hplain
        refine .ok fun name hname ↦ ?_
        cases hname
        simpa using hplain
  · exact .ok fun _ hname ↦ nomatch hname

end Workspace

end WaveNotebook
