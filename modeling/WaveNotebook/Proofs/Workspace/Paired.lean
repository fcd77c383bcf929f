import WaveNotebook.Proofs.Method.Paired
import WaveNotebook.Proofs.Text.Blank
import WaveNotebook.Proofs.Workspace.Run

/-!
# Paired workspaces

Workspaces are paired if they have the same settings and methods, and if the same names stand for
paired values in paired stores. A statement that succeeds on the one workspace succeeds on the
other, and leaves them paired.
-/

namespace WaveNotebook

open Run

/-- The same names with paired values, in the same order. -/
abbrev PairedBindings (R : Pairing) :=
  List.Forall₂ fun (b b' : String × Value) ↦ b.1 = b'.1 ∧ b.2.Paired R b'.2

namespace PairedBindings

variable {R R' : Pairing} {bs bs' : List (String × Value)}

theorem mono (h : PairedBindings R bs bs') (hle : R ≤ R') : PairedBindings R' bs bs' :=
  h.imp fun _ _ hb ↦ ⟨hb.1, hb.2.mono hle⟩

/-- Only the handles of the names themselves matter. -/
theorem restrict (h : PairedBindings R bs bs') :
    PairedBindings (fun h k ↦ R h k ∧ ∃ name, (name, .matrix h) ∈ bs) bs bs' := by
  have hmem := (List.forall₂_and_left bs bs').mpr ⟨fun b (hb : b ∈ bs) ↦ hb, h⟩
  refine hmem.imp fun (name, v) (name', v') ⟨hb, hkey, hv⟩ ↦ ⟨hkey, ?_⟩
  cases hv with
  | matrix hR => exact .matrix ⟨hR, name, hb⟩
  | _ => constructor

theorem keys_eq (h : PairedBindings R bs bs') : Record.keys bs' = Record.keys bs := by
  induction h with
  | nil => rfl
  | cons hb _ ih =>
    unfold Record.keys at *
    rw [List.map_cons, List.map_cons, ih, hb.1]

theorem lookup (h : PairedBindings R bs bs') (name : String) :
    Option.Rel (Value.Paired R) (bs.lookup name) (bs'.lookup name) := by
  induction h with
  | nil => exact .none
  | @cons b b' _ _ hb _ ih =>
    obtain ⟨key, v⟩ := b
    obtain ⟨key', v'⟩ := b'
    obtain ⟨rfl, hv⟩ := hb
    rw [List.lookup_cons, List.lookup_cons]
    cases name == key with
    | true => exact .some hv
    | false => exact ih

theorem put (h : PairedBindings R bs bs') (name : String) {v v' : Value} (hv : v.Paired R v') :
    PairedBindings R (Record.put bs name v) (Record.put bs' name v') := by
  have hany : bs'.any (·.1 == name) = bs.any (·.1 == name) := by
    induction h with
    | nil => rfl
    | cons hb _ ih => rw [List.any_cons, List.any_cons, ih, hb.1]
  unfold Record.put
  rw [hany]
  split
  · rw [PairedBindings, List.forall₂_map_left_iff, List.forall₂_map_right_iff]
    refine h.imp fun b b' hb ↦ ?_
    rw [← hb.1]
    split
    · exact ⟨rfl, hv⟩
    · exact hb
  · exact List.rel_append h (.cons ⟨rfl, hv⟩ .nil)

end PairedBindings

/-- Scopes with the standard methods that differ in handles alone. -/
structure Scope.Paired (R : Pairing) (scope scope' : Scope) : Prop where
  config : scope'.config = scope.config
  standard : scope.methods = MethodTable.standard
  standard' : scope'.methods = MethodTable.standard
  bindings : PairedBindings R scope.bindings scope'.bindings

namespace Scope.Paired

variable {R R' : Pairing} {scope scope' : Scope}

theorem mono (h : scope.Paired R scope') (hle : R ≤ R') : scope.Paired R' scope' :=
  ⟨h.config, h.standard, h.standard', h.bindings.mono hle⟩

theorem resolve (h : scope.Paired R scope') (name : String) :
    Option.Rel (Value.Paired R) (scope.resolve name) (scope'.resolve name) := by
  unfold Scope.resolve
  have hbound := h.bindings.lookup name
  generalize scope.bindings.lookup name = bound at hbound ⊢
  generalize scope'.bindings.lookup name = bound' at hbound ⊢
  cases hbound with
  | some hv => exact .some hv
  | none =>
    rw [Option.none_or]
    cases builtin? name with
    | some b => exact .some (.function b)
    | none => exact .none

end Scope.Paired

theorem Builtin.apply_mirror {R : Pairing} {s t : Session} (hst : s.store.Paired R t.store)
    (b : Builtin) (config : Config) {args args' : List Argument}
    (hargs : List.Forall₂ (Argument.Paired R) args args') :
    Mirrors R s t Value.Paired (b.apply config args) (b.apply config args') := by
  unfold Builtin.apply
  refine .toData_bind hst hargs fun data ↦ ?_
  split
  case h_3 => exact .lift_map hst .signal
  case h_4 => exact .lift_map hst .signal
  case h_5 => exact .lift_map hst .signal
  case h_8 => exact .lift_bind fun g ↦ .newMatrix hst g
  all_goals exact .fail

/-- A method is looked up by the kind of its receiver. -/
theorem MethodTable.lookup_eq (table : MethodTable) {R : Pairing} {v v' : Value}
    (hv : v.Paired R v') (member : String) :
    table.lookup (.value v') member = table.lookup (.value v) member := by
  unfold lookup Argument.kind
  dsimp only
  rw [hv.kind_eq]

namespace Expr

variable {scope scope' : Scope}

mutual

theorem eval_mirror {R : Pairing} {s t : Session} (hst : s.store.Paired R t.store)
    (hscope : scope.Paired R scope') (e : Expr) :
    Mirrors R s t Argument.Paired (e.eval scope) (e.eval scope') := by
  match e with
  | .number x => exact .pure hst (.value (.number x))
  | .data d _ => exact .pure hst (Argument.paired_ofDatum R d)
  | .malformed _ | .badLiteral _ _ | .tooDeep => exact .fail
  | .name text =>
    unfold eval
    have hname := hscope.resolve text
    generalize scope.resolve text = v at hname ⊢
    generalize scope'.resolve text = v' at hname ⊢
    cases hname with
    | some hv => exact .pure hst (.value hv)
    | none => exact .fail
  | .call callee text args =>
    unfold eval
    have hname := hscope.resolve callee
    generalize scope.resolve callee = v at hname ⊢
    generalize scope'.resolve callee = v' at hname ⊢
    rw [hscope.config]
    cases hname with
    | none => exact .fail
    | some hv =>
      cases hv with
      | function b =>
        dsimp only
        cases b.style with
        | positional =>
          refine (evalAll_mirror hst hscope args).bind fun R' s' t' _ _ _ hst' hargs ↦ ?_
          exact (b.apply_mirror hst' _ hargs).map fun _ _ _ hv ↦ .value hv
        | grid | options =>
          refine .lift_bind fun d ↦ ?_
          exact (b.apply_mirror hst _ (.cons (.data d) .nil)).map fun _ _ _ hv ↦ .value hv
      | _ => exact .fail
  | .method receiver member args =>
    unfold eval
    have hname := hscope.resolve receiver
    generalize scope.resolve receiver = v at hname ⊢
    generalize scope'.resolve receiver = v' at hname ⊢
    rw [hscope.config, hscope.standard, hscope.standard']
    cases hname with
    | none => exact .fail
    | @some v v' hv =>
      have hlookup := MethodTable.standard.lookup_yields v member
      dsimp only
      rw [MethodTable.standard.lookup_eq hv]
      cases hm : MethodTable.standard.lookup (.value v) member with
      | error fault => exact .fail
      | ok m =>
        rw [hm] at hlookup
        refine (evalAll_mirror hst hscope args).bind fun R' s' t' _ _ hle hst' hargs ↦ ?_
        -- the receiver was looked up first, and its handle still has its partner
        have hv' := hv.mono hle
        exact (Method.call_mirror hst' hargs _ hv' hlookup.value.1).map fun _ _ _ h ↦ .value h

theorem evalAll_mirror {R : Pairing} {s t : Session} (hst : s.store.Paired R t.store)
    (hscope : scope.Paired R scope') (es : List Expr) :
    Mirrors R s t (fun R args args' ↦ List.Forall₂ (Argument.Paired R) args args')
      (evalAll scope es) (evalAll scope' es) := by
  match es with
  | [] => exact .pure hst .nil
  | e :: es =>
    unfold evalAll
    refine (eval_mirror hst hscope e).bind fun R' s' t' a a' hle hst' ha ↦ ?_
    refine (evalAll_mirror hst' (hscope.mono hle) es).bind fun R'' _ _ _ _ hle' hst'' has ↦ ?_
    exact .pure hst'' (.cons (ha.mono hle') has)

end

theorem value_mirror {R : Pairing} {s t : Session} (hst : s.store.Paired R t.store)
    (hscope : scope.Paired R scope') (e : Expr) :
    Mirrors R s t Value.Paired (e.value scope) (e.value scope') := by
  unfold value
  refine (eval_mirror hst hscope e).bind fun R' s' t' a a' _ hst' ha ↦ ?_
  cases ha with
  | value hv => exact .pure hst' hv
  | data d => exact .fail

end Expr

namespace Workspace

/-- Paired scopes in paired stores. -/
structure Paired (R : Pairing) (w w' : Workspace) : Prop where
  scope : w.scope.Paired R w'.scope
  store : w.session.store.Paired R w'.session.store

variable {R : Pairing} {w w' w₁ : Workspace}

theorem Paired.evaluate (h : w.Paired R w') {text : List Char} {v : Value}
    (hvalue : w.evaluate text = (.ok v, w₁)) :
    ∃ v' w₁' R', w'.evaluate text = (.ok v', w₁') ∧ w₁.Paired R' w₁' ∧ v.Paired R' v' := by
  obtain ⟨hresult, rfl⟩ := Prod.mk.inj hvalue
  have hmirror := Expr.value_mirror h.store h.scope (Expr.read text)
  obtain ⟨v', t', R', hrun, hle, hstore, hv⟩ := hmirror v _ (Prod.ext hresult rfl)
  refine ⟨v', { w' with session := t' }, R', ?_, ⟨h.scope.mono hle, hstore⟩, hv⟩
  unfold Workspace.evaluate
  dsimp only [Expr.limited]
  rw [show ((Expr.read text).value w'.scope).run w'.session = _ from hrun]

theorem Paired.assign (h : w.Paired R w') (target : Option String) {v v' : Value}
    (hv : v.Paired R v') : (w.assign target v).Paired R (w'.assign target v') := by
  cases target with
  | none => exact h
  | some name =>
    obtain ⟨⟨hconfig, hstandard, hstandard', hbindings⟩, hstore⟩ := h
    exact ⟨⟨hconfig, hstandard, hstandard', hbindings.put name hv⟩, hstore⟩

theorem Paired.code_eq (h : w.Paired R w') (raw : List Char) :
    w'.code (Text.trim raw) = w.code raw := by
  unfold code
  rw [h.scope.config, Text.trim_trim]

theorem Paired.passed_iff (h : w.Paired R w') (raw : List Char) :
    w'.Passed (Text.trim raw) ↔ w.Passed raw := by
  unfold Passed
  rw [h.scope.config, Text.trim_trim]

end Workspace

end WaveNotebook
