import Mathlib.Data.List.Forall2
import WaveNotebook.Proofs.Store.Pairing
import WaveNotebook.Proofs.Value.Sound

/-!
# Computations on paired stores

Values are paired if they are equal but for handles that belong together. A computation mirrors
another one if it succeeds whenever that one does, from paired stores, and leaves paired stores
and results that belong together. Nothing is asked of computations that fail. One rule for each
way to build a computation shows that a computation mirrors itself, as long as all that it does
with handles is to look up, edit and make matrices.
-/

namespace WaveNotebook

/-- The values are equal but for handles, which form a pair. -/
inductive Value.Paired (R : Pairing) : Value → Value → Prop
  | number (x) : Paired R (.number x) (.number x)
  | signal (s) : Paired R (.signal s) (.signal s)
  | matrix {h k} (hR : R h k) : Paired R (.matrix h) (.matrix k)
  | function (b) : Paired R (.function b) (.function b)
  | modes (signals) : Paired R (.modes signals) (.modes signals)
  | metrics (values) : Paired R (.metrics values) (.metrics values)

inductive Argument.Paired (R : Pairing) : Argument → Argument → Prop
  | value {v v'} (h : v.Paired R v') : Paired R (.value v) (.value v')
  | data (d) : Paired R (.data d) (.data d)

section

variable {R R' : Pairing} {s t : Store Float}

theorem Value.Paired.mono {v v' : Value} (h : v.Paired R v') (hle : R ≤ R') : v.Paired R' v' := by
  cases h with
  | matrix hR => exact .matrix (hle _ _ hR)
  | _ => constructor

theorem Argument.Paired.mono {a a' : Argument} (h : a.Paired R a') (hle : R ≤ R') :
    a.Paired R' a' := by
  cases h with
  | value h => exact .value (h.mono hle)
  | data d => exact .data d

theorem Argument.paired_ofDatum (R : Pairing) (d : Datum) :
    (Argument.ofDatum d).Paired R (Argument.ofDatum d) := by
  unfold Argument.ofDatum
  split
  · exact .value (.number _)
  · exact .data _

theorem Value.Paired.kind_eq {v v' : Value} (h : v.Paired R v') : v'.kind = v.kind := by
  cases h <;> rfl

theorem Argument.Paired.describe_eq {a a' : Argument} (h : a.Paired R a') :
    a'.describe = a.describe := by
  cases h with
  | value h => exact congrArg ValueKind.name h.kind_eq
  | data d => rfl

/-- As plain data, values show the grids that their handles stand for. -/
theorem Argument.Paired.toDatum_eq {a a' : Argument} (h : a.Paired R a') (hst : s.Paired R t) :
    a'.toDatum t = a.toDatum s := by
  cases h with
  | value h =>
    cases h with
    | matrix hR =>
      exact congrArg (fun g : Grid Float ↦ Datum.ofType "Matrix" g.shown) (hst.same hR).symm
    | _ => rfl
  | data d => rfl

end

namespace Run

variable {α β γ δ : Type} {R : Pairing} {s t : Session} {x : Run α} {y : Run β}
  {f : α → Run γ} {g : β → Run δ} {post : Pairing → α → β → Prop}
  {post' : Pairing → γ → δ → Prop}

/-- Whenever the first computation succeeds, the second one does, with a result that belongs to
that of the first one. -/
def Mirrors (R : Pairing) (s t : Session) (post : Pairing → α → β → Prop) (x : Run α)
    (y : Run β) : Prop :=
  ∀ a s', x.run s = (.ok a, s') → ∃ b t' R', y.run t = (.ok b, t') ∧ R ≤ R' ∧
    s'.store.Paired R' t'.store ∧ post R' a b

namespace Mirrors

theorem bind (h : Mirrors R s t post x y)
    (hf : ∀ R' s' t' a b, R ≤ R' → s'.store.Paired R' t'.store → post R' a b →
      Mirrors R' s' t' post' (f a) (g b)) : Mirrors R s t post' (x >>= f) (y >>= g) := by
  intro c s'' hrun
  cases hx : x.run s with
  | mk r s' =>
    cases r with
    | error fault =>
      rw [run_bind_error hx] at hrun
      cases hrun
    | ok a =>
      rw [run_bind_ok hx] at hrun
      obtain ⟨b, t', R', hy, hle, hpaired, hpost⟩ := h a s' hx
      obtain ⟨d, t'', R'', hg, hle', hpaired', hpost'⟩ :=
        hf R' s' t' a b hle hpaired hpost c s'' hrun
      exact ⟨d, t'', R'', (run_bind_ok hy).trans hg, hle.trans hle', hpaired', hpost'⟩

theorem fail {fault : Fault} : Mirrors R s t post (Run.fail fault) y :=
  fun _ _ hrun ↦ nomatch hrun

/-- A step without effects that is the same on both sides. -/
theorem lift_bind {r : Except Fault α} {f : α → Run γ} {g : α → Run δ}
    (hf : ∀ a, Mirrors R s t post' (f a) (g a)) :
    Mirrors R s t post' (Run.lift r >>= f) (Run.lift r >>= g) := by
  cases r with
  | error fault => exact fail
  | ok a => exact hf a

section

variable (hst : s.store.Paired R t.store)

include hst

theorem pure {a : α} {b : β} (h : post R a b) :
    Mirrors R s t post (Pure.pure a) (Pure.pure b) := by
  rintro _ _ ⟨⟩
  exact ⟨b, t, R, rfl, le_refl R, hst, h⟩

theorem newMatrix (m : Grid Float) :
    Mirrors R s t Value.Paired (Run.newMatrix m) (Run.newMatrix m) := by
  rintro _ _ ⟨⟩
  exact ⟨_, _, _, rfl, R.le_extend _ _, hst.alloc m, .matrix (.inr ⟨rfl, rfl⟩)⟩

/-- The same grid is read through both handles of a pair. -/
theorem grid_bind {h k : Handle} (hhk : R h k) {f g : Grid Float → Run γ}
    {post' : Pairing → γ → γ → Prop} (hf : ∀ m, Mirrors R s t post' (f m) (g m)) :
    Mirrors R s t post' (Run.grid h >>= f) (Run.grid k >>= g) := by
  have hgrid : (Run.grid k).run t = (.ok (s.store.grid h), t) := by
    rw [hst.same hhk]
    rfl
  have hgrid' : (Run.grid h).run s = (.ok (s.store.grid h), s) := rfl
  intro a s' hrun
  rw [run_bind_ok hgrid'] at hrun
  rw [run_bind_ok hgrid]
  exact hf _ a s' hrun

theorem putGrid {h k : Handle} (hhk : R h k) (m : Grid Float) :
    Mirrors R s t (fun R' _ _ ↦ R' h k) (Run.putGrid h m) (Run.putGrid k m) := by
  rintro _ _ ⟨⟩
  exact ⟨_, _, R, rfl, le_refl R, hst.put hhk m, hhk⟩

theorem note (notices : List Notice) :
    Mirrors R s t (fun _ _ _ ↦ True) (Run.note notices) (Run.note notices) := by
  rintro _ _ ⟨⟩
  exact ⟨_, _, R, rfl, le_refl R, hst, trivial⟩

theorem toData_bind {args args' : List Argument}
    (hargs : List.Forall₂ (Argument.Paired R) args args') {f g : List Datum → Run γ}
    {post' : Pairing → γ → γ → Prop} (hf : ∀ data, Mirrors R s t post' (f data) (g data)) :
    Mirrors R s t post' (Run.toData args >>= f) (Run.toData args' >>= g) := by
  have hdata : args'.map (·.toDatum t.store) = args.map (·.toDatum s.store) := by
    induction hargs with
    | nil => rfl
    | cons ha _ ih => rw [List.map_cons, List.map_cons, ih, ha.toDatum_eq hst]
  have hrun : (Run.toData args').run t = (.ok (args.map (·.toDatum s.store)), t) := by
    rw [← hdata]
    rfl
  have hrun' : (Run.toData args).run s = (.ok (args.map (·.toDatum s.store)), s) := rfl
  intro a s' h
  rw [run_bind_ok hrun'] at h
  rw [run_bind_ok hrun]
  exact hf _ a s' h

end

theorem map {f : α → γ} {g : β → δ} (h : Mirrors R s t post x y)
    (hf : ∀ R' a b, post R' a b → post' R' (f a) (g b)) :
    Mirrors R s t post' (f <$> x) (g <$> y) := by
  rw [← bind_pure_comp, ← bind_pure_comp]
  exact h.bind fun R' s' t' a b _ hst hpost ↦ pure hst (hf R' a b hpost)

/-- A result without effects that is wrapped as a value without handles. -/
theorem lift_map (hst : s.store.Paired R t.store) {r : Except Fault α} {f : α → Value}
    (hf : ∀ a, (f a).Paired R (f a)) :
    Mirrors R s t Value.Paired (f <$> Run.lift r) (f <$> Run.lift r) := by
  cases r with
  | error fault => exact fail
  | ok a => exact pure hst (hf a)

end Mirrors

end Run

end WaveNotebook
