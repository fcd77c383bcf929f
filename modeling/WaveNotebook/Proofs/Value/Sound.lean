import WaveNotebook.Proofs.Signal.Sound
import WaveNotebook.Proofs.Store.Edit
import WaveNotebook.Session

/-!
# Sound values and the computations that keep them

A value is sound in a store if its numbers obey the rules of its kind and its handle is one of
the store. `Run.Performs` is the contract of computations on sessions: from a session with a
sound store, a computation carries out the given edits and adds matrices, leaves a sound store,
and ends with a value that has the given property there, or with an expected fault. Other faults
can be allowed instead.
-/

namespace WaveNotebook

def Value.Sound (st : Store Float) : Value → Prop
  | .number _ => True
  | .signal s => s.Sound
  | .matrix h => h.index < st.grids.size
  | .function b => b ∈ Builtin.standard
  | .modes signals => SoundModes signals
  | .metrics values => SoundMetrics values

def Argument.Sound (st : Store Float) : Argument → Prop
  | .value v => v.Sound st
  | .data _ => True

section

variable {st st' : Store Float}

/-- Values stay sound while matrices come and are edited. -/
theorem Value.Sound.mono {v : Value} (hv : v.Sound st)
    (hsize : st.grids.size ≤ st'.grids.size) : v.Sound st' := by
  cases v with
  | matrix h => exact Nat.lt_of_lt_of_le hv hsize
  | _ => exact hv

theorem Argument.Sound.mono {a : Argument} (ha : a.Sound st)
    (hsize : st.grids.size ≤ st'.grids.size) : a.Sound st' := by
  cases a with
  | value v => exact Value.Sound.mono ha hsize
  | data d => trivial

theorem Argument.sound_ofDatum (d : Datum) : (Argument.ofDatum d).Sound st := by
  unfold Argument.ofDatum
  split <;> trivial

end

namespace Run

variable {α β : Type} {s s' : Session} {post : Store Float → α → Prop}
  {post' : Store Float → β → Prop} {x : Run α} {f : α → Run β} {edits : List Edit}
  {bad bad' : Fault → Prop}

structure Performs (edits : List Edit) (s : Session) (post : Store Float → α → Prop)
    (x : Run α) (bad : Fault → Prop := Fault.Expected) : Prop where
  store : (x.run s).2.store.Extends (s.store.replay edits)
  sound : (x.run s).2.store.Sound
  ends : Ends bad (post (x.run s).2.store) (x.run s).1

/-- The edits of what follows a computation: none if it fails. -/
def after (x : Run α) (s : Session) (next : α → Session → List Edit) : List Edit :=
  match x.run s with
  | (.ok a, s') => next a s'
  | (.error _, _) => []

theorem after_ok {a : α} (hx : x.run s = (.ok a, s')) (next : α → Session → List Edit) :
    after x s next = next a s' := by
  rw [after, hx]

theorem after_error {e : Fault} (hx : x.run s = (.error e, s')) (next : α → Session → List Edit) :
    after x s next = [] := by
  rw [after, hx]

@[simp]
theorem after_nil : after x s (fun _ _ ↦ []) = [] := by
  unfold after
  split <;> rfl

theorem run_bind_ok {a : α} (hx : x.run s = (.ok a, s')) : (x >>= f).run s = (f a).run s' := by
  change ExceptT.bindCont f (x.run s).1 (x.run s).2 = _
  rw [hx]
  rfl

theorem run_bind_error {e : Fault} (hx : x.run s = (.error e, s')) :
    (x >>= f).run s = (.error e, s') := by
  change ExceptT.bindCont f (x.run s).1 (x.run s).2 = _
  rw [hx]
  rfl

theorem after_bind (next : β → Session → List Edit) :
    after (x >>= f) s next = after x s fun a s' ↦ after (f a) s' next := by
  cases hx : x.run s with
  | mk r s' =>
    cases r with
    | ok a => rw [after_ok hx, after, after, run_bind_ok hx]
    | error e => rw [after_error hx, after_error (run_bind_error hx)]

namespace Performs

theorem size_le (h : Performs edits s post x bad) :
    s.store.grids.size ≤ (x.run s).2.store.grids.size := by
  rw [← s.store.size_replay edits]
  exact h.store.size_le

theorem weaken (h : Performs edits s post x bad) (hbad : ∀ fault, bad fault → bad' fault) :
    Performs edits s post x bad' :=
  ⟨h.store, h.sound, h.ends.weaken hbad⟩

/-! ## Composition -/

/-- The edits of two steps are those of the first one, followed by those of the second one if
the first one succeeds. -/
theorem bind_after {next : α → Session → List Edit} (h : Performs edits s post x bad)
    (hf : ∀ a s', s.store.grids.size ≤ s'.store.grids.size → s'.store.Sound → post s'.store a →
      Performs (next a s') s' post' (f a) bad) :
    Performs (edits ++ after x s next) s post' (x >>= f) bad := by
  have hsize := h.size_le
  obtain ⟨hstore, hsound, hends⟩ := h
  cases hx : x.run s with
  | mk r s' =>
    rw [hx] at hsize hstore hsound hends
    cases r with
    | ok a =>
      have hnext := hf a s' hsize hsound hends.value
      rw [after_ok hx]
      -- replaying commutes with the matrices that the first step has added
      constructor
      · rw [run_bind_ok hx, s.store.replay_append]
        exact hnext.store.trans (hstore.replay _)
      · rw [run_bind_ok hx]
        exact hnext.sound
      · rw [run_bind_ok hx]
        exact hnext.ends
    | error e =>
      rw [after_error hx, List.append_nil]
      constructor
      · rwa [run_bind_error hx]
      · rwa [run_bind_error hx]
      · rw [run_bind_error hx]
        exact .error hends.fault

/-- Steps of which only the first one edits. -/
theorem bind_quiet (h : Performs edits s post x bad)
    (hf : ∀ a s', s.store.grids.size ≤ s'.store.grids.size → s'.store.Sound → post s'.store a →
      Performs [] s' post' (f a) bad) : Performs edits s post' (x >>= f) bad := by
  simpa using h.bind_after hf

/-- Steps that edit nothing. -/
theorem bind (h : Performs [] s post x bad)
    (hf : ∀ a s', s.store.grids.size ≤ s'.store.grids.size → s'.store.Sound → post s'.store a →
      Performs [] s' post' (f a) bad) : Performs [] s post' (x >>= f) bad :=
  h.bind_quiet hf

/-- Steps of which the last one edits if it succeeds. -/
theorem bind_last {next : β → Session → List Edit} (h : Performs [] s post x bad)
    (hf : ∀ a s', s.store.grids.size ≤ s'.store.grids.size → s'.store.Sound → post s'.store a →
      Performs (after (f a) s' next) s' post' (f a) bad) :
    Performs (after (x >>= f) s next) s post' (x >>= f) bad := by
  rw [after_bind]
  exact h.bind_after hf

/-! ## Single steps -/

section

variable (hs : s.store.Sound)

include hs

theorem lift {r : Except Fault α} (h : Ends bad (post s.store) r) :
    Performs [] s post (Run.lift r) bad :=
  ⟨.refl _, hs, h⟩

theorem fail {fault : Fault} (h : bad fault) : Performs [] s post (Run.fail fault : Run α) bad :=
  lift hs (.error h)

theorem pure {a : α} (h : post s.store a) : Performs [] s post (Pure.pure a : Run α) bad :=
  lift hs (.ok h)

theorem newMatrix {g : Grid Float} (hg : g.Sound) :
    Performs [] s Value.Sound (Run.newMatrix g) :=
  ⟨s.store.extends_alloc g, hs.alloc hg, .ok (by
    change s.store.grids.size < (s.store.grids.push g).size
    simp)⟩

theorem grid (h : Handle) : Performs [] s (fun _ g ↦ g.Sound ∧ g = s.store.grid h) (Run.grid h) :=
  ⟨.refl _, hs, .ok ⟨hs.grid h, rfl⟩⟩

theorem note (notices : List Notice) : Performs [] s (fun _ _ ↦ True) (Run.note notices) :=
  ⟨.refl _, hs, .ok trivial⟩

theorem toData (args : List Argument) : Performs [] s (fun _ _ ↦ True) (Run.toData args) :=
  ⟨.refl _, hs, .ok trivial⟩

/-- The one step that edits. -/
theorem putGrid (h : Handle) (i : Fin (s.store.grid h).rows) (j : Fin (s.store.grid h).cols)
    {x : Float} (hx : isFinite x = true) :
    Performs [⟨h, i, j, x⟩] s (fun _ _ ↦ True)
      (Run.putGrid h ((s.store.grid h).replace i j x)) := by
  refine ⟨?_, hs.put h ((hs.grid h).replace i j hx), .ok trivial⟩
  rw [← Grid.edit_fin]
  exact .refl _

end

theorem map {g : α → β} (h : Performs edits s post x bad)
    (hg : ∀ st a, post st a → post' st (g a)) : Performs edits s post' (g <$> x) bad := by
  rw [← bind_pure_comp]
  exact h.bind_quiet fun a s' _ hs' ha ↦ pure hs' (hg _ _ ha)

/-- A computation without effects, whose value has a property in every store. -/
theorem lift_bind_last (hs : s.store.Sound) {p : α → Prop} {r : Except Fault α}
    {next : β → Session → List Edit} (h : Ends bad p r)
    (hf : ∀ a s', s.store.grids.size ≤ s'.store.grids.size → s'.store.Sound → p a →
      Performs (after (f a) s' next) s' post' (f a) bad) :
    Performs (after (Run.lift r >>= f) s next) s post' (Run.lift r >>= f) bad := by
  have hlift : Performs [] s (fun _ ↦ p) (Run.lift r) bad := lift hs h
  exact hlift.bind_last hf

theorem lift_bind (hs : s.store.Sound) {p : α → Prop} {r : Except Fault α} (h : Ends bad p r)
    (hf : ∀ a s', s'.store.Sound → p a → Performs [] s' post' (f a) bad) :
    Performs [] s post' (Run.lift r >>= f) bad := by
  have hlift : Performs [] s (fun _ ↦ p) (Run.lift r) bad := lift hs h
  exact hlift.bind fun a s' _ hs' ha ↦ hf a s' hs' ha

theorem lift_map (hs : s.store.Sound) {p : α → Prop} {r : Except Fault α} {g : α → β}
    (h : Ends bad p r) (hg : ∀ st a, p a → post' st (g a)) :
    Performs [] s post' (g <$> Run.lift r) bad := by
  have hlift : Performs [] s (fun _ ↦ p) (Run.lift r) bad := lift hs h
  exact hlift.map hg

end Performs

end Run

end WaveNotebook
