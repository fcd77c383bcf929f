import WaveNotebook.Proofs.Method.Standard
import WaveNotebook.Workspace.Evaluation

/-!
# The contract of evaluation

In a sound scope, every expression keeps the contract of computations on sessions; only if it has
places that are too deep, it may also run out of frames. The edits that an expression carries out
are those of the completed calls of `set` in it, in the order of evaluation: from left to right,
and the arguments of a call before the call.
-/

namespace WaveNotebook

open Run

/-- The standard methods, and names that stand for sound values. -/
structure Scope.Sound (st : Store Float) (scope : Scope) : Prop where
  standard : scope.methods = MethodTable.standard
  bound : ∀ binding ∈ scope.bindings, binding.2.Sound st

namespace Scope

variable {st st' : Store Float} {scope : Scope}

theorem Sound.mono (h : scope.Sound st) (hsize : st.grids.size ≤ st'.grids.size) :
    scope.Sound st' :=
  ⟨h.standard, fun binding hbinding ↦ (h.bound binding hbinding).mono hsize⟩

theorem Sound.resolve (h : scope.Sound st) {name : String} {v : Value}
    (hv : scope.resolve name = some v) : v.Sound st := by
  unfold Scope.resolve at hv
  obtain hbound | ⟨-, hbuiltin⟩ := Option.or_eq_some_iff.mp hv
  · exact h.bound _ (Record.mem_of_lookup hbound)
  · obtain ⟨b, hb, rfl⟩ := Option.map_eq_some_iff.mp hbuiltin
    exact List.mem_of_find?_eq_some hb

end Scope

theorem MethodTable.lookup_yields (t : MethodTable) (v : Value) (member : String) :
    Yields (fun m ↦ (v.kind, m) ∈ t.entries ∧ m.name = member)
      (t.lookup (.value v) member) := by
  have hkind : Yields (fun kind ↦ kind = v.kind) (Argument.value v).kind := .ok rfl
  unfold lookup
  apply hkind.bind
  rintro _ rfl
  split
  · rename_i m hm
    obtain ⟨entry, hentry, rfl⟩ := Option.map_eq_some_iff.mp hm
    have hkind := List.find?_some hentry
    rw [Bool.and_eq_true, beq_iff_eq] at hkind
    rw [← hkind.1]
    exact .ok ⟨List.mem_of_find?_eq_some hentry, eq_of_beq hkind.2⟩
  · exact .error rfl

theorem Builtin.apply_performs {s : Session} (hs : s.store.Sound) (b : Builtin) (config : Config)
    (args : List Argument) : Performs [] s Value.Sound (b.apply config args) := by
  unfold Builtin.apply
  apply (Performs.toData hs args).bind
  intro data s' _ hs' _
  split
  case h_3 => exact .lift_map hs' (Signal.tone_yields ..) fun _ _ ht ↦ ht
  case h_4 => exact .lift_map hs' (Signal.tone_yields ..) fun _ _ ht ↦ ht
  case h_5 =>
    refine .lift_map hs' ?_ fun _ _ ht ↦ ht
    exact (Sweep.ofOptions_yields _ _).bind fun sweep _ ↦ sweep.signal_yields
  case h_8 =>
    apply Performs.lift_bind hs' (Grid.ofDatum_yields _)
    intro g s'' hs'' hg
    exact .newMatrix hs'' hg
  all_goals exact .fail hs' rfl

theorem Literal.readGrid_yields (text : List Char) :
    Yields (fun _ ↦ True) (readGrid text) := by
  unfold readGrid
  split
  · exact .error rfl
  · split
    · exact .error rfl
    · exact .error rfl
    · split
      · exact .ok trivial
      · exact .error rfl
  · exact .error rfl

theorem Literal.readOptions_yields (text : List Char) :
    Yields (fun _ ↦ True) (readOptions text) := by
  unfold readOptions
  split
  · exact .error rfl
  · exact .ok trivial
  · exact .error rfl

theorem literalArgument_yields (style : ArgumentStyle) (text : List Char) :
    Yields (fun _ ↦ True) (literalArgument style text) := by
  unfold literalArgument
  split
  · exact (Literal.readGrid_yields text).bind fun _ _ ↦ .ok trivial
  · split
    · exact .error rfl
    · exact (Literal.readOptions_yields text).bind fun _ _ ↦ .ok trivial

namespace Expr

mutual

/-- The edits of the completed calls of `set` in an expression. -/
def edits (scope : Scope) : Expr → Session → List Edit
  | .call callee _ args, s =>
    match scope.resolve callee with
    | some (.function b) =>
      match b.style with
      | .positional => editsAll scope args s
      | _ => []
    | _ => []
  | .method receiver member args, s =>
    match scope.resolve receiver with
    | none => []
    | some v =>
      match scope.methods.lookup (.value v) member with
      | .ok m =>
        editsAll scope args s ++
          after (evalAll scope args) s fun args s' ↦ m.edits v args scope.config s'
      | .error _ => []
  | .number _, _ | .data _ _, _ | .name _, _ | .malformed _, _ | .badLiteral _ _, _
  | .tooDeep, _ => []

def editsAll (scope : Scope) : List Expr → Session → List Edit
  | [], _ => []
  | e :: es, s => edits scope e s ++ after (eval scope e) s fun _ s' ↦ editsAll scope es s'

end

mutual

/-- Whether no place of an expression is too deep. -/
def whole : Expr → Bool
  | .call _ _ args | .method _ _ args => wholeAll args
  | .number _ | .data _ _ | .name _ | .malformed _ | .badLiteral _ _ => true
  | .tooDeep => false

def wholeAll : List Expr → Bool
  | [] => true
  | e :: es => whole e && wholeAll es

end

/-- The faults of evaluation: expected ones, and frames that run out where an expression has
places that are too deep. -/
def MayFail (whole : Bool) (fault : Fault) : Prop :=
  fault.Expected ∨ whole = false ∧ fault = .numeric .recursion

theorem MayFail.and_left {a b : Bool} {fault : Fault} (h : MayFail a fault) :
    MayFail (a && b) fault :=
  h.imp_right fun ⟨ha, hf⟩ ↦ ⟨by rw [ha, Bool.false_and], hf⟩

theorem MayFail.and_right {a b : Bool} {fault : Fault} (h : MayFail b fault) :
    MayFail (a && b) fault :=
  h.imp_right fun ⟨hb, hf⟩ ↦ ⟨by rw [hb, Bool.and_false], hf⟩

theorem mayFail_of_expected {whole : Bool} (fault : Fault) (h : fault.Expected) :
    MayFail whole fault :=
  .inl h

mutual

theorem eval_performs {scope : Scope} {s : Session} (hs : s.store.Sound)
    (hscope : scope.Sound s.store) (e : Expr) :
    Performs (e.edits scope s) s Argument.Sound (e.eval scope) (MayFail e.whole) := by
  match e with
  | .number x => exact .pure hs trivial
  | .data d _ => exact .pure hs (Argument.sound_ofDatum d)
  | .name text =>
    unfold edits eval
    split
    · rename_i v hv
      exact .pure hs (hscope.resolve hv)
    · exact .fail hs (.inl rfl)
  | .malformed f => exact .fail hs (.inl rfl)
  | .badLiteral f _ => exact .fail hs (.inl rfl)
  | .tooDeep => exact .fail hs (.inr ⟨rfl, rfl⟩)
  | .call callee text args =>
    unfold edits eval
    cases hv : scope.resolve callee with
    | none => exact .fail hs (.inl rfl)
    | some v =>
      cases v with
      | function b =>
        have happly : ∀ {s' : Session}, s'.store.Sound → ∀ values : List Argument,
            Performs [] s' Value.Sound (b.apply scope.config values) (MayFail (wholeAll args)) :=
          fun hs' values ↦ (b.apply_performs hs' scope.config values).weaken mayFail_of_expected
        dsimp only
        cases b.style with
        | positional =>
          -- a builtin runs behind its arguments and edits nothing itself
          apply (evalAll_performs hs hscope args).bind_quiet
          intro args s' _ hs' _
          exact (happly hs' args).map fun _ _ hw ↦ hw
        | grid | options =>
          apply Performs.lift_bind hs ((literalArgument_yields _ text).weaken mayFail_of_expected)
          intro d s' hs' _
          exact (happly hs' _).map fun _ _ hw ↦ hw
      | _ => exact .fail hs (.inl rfl)
  | .method receiver member args =>
    unfold edits eval
    cases hv : scope.resolve receiver with
    | none => exact .fail hs (.inl rfl)
    | some v =>
      have hlookup := scope.methods.lookup_yields v member
      dsimp only
      cases hm : scope.methods.lookup (.value v) member with
      | error fault =>
        rw [hm] at hlookup
        have hfail : Performs [] s (fun _ _ ↦ False) (Run.lift (.error fault) : Run Method)
            (MayFail (wholeAll args)) :=
          .fail hs (.inl hlookup.fault)
        exact hfail.bind fun _ _ _ _ h ↦ h.elim
      | ok m =>
        rw [hm, hscope.standard] at hlookup
        rw [show (Run.lift (.ok m) : Run Method) = pure m from rfl, pure_bind]
        apply (evalAll_performs hs hscope args).bind_after
        intro args s' hsize hs' _
        -- the receiver was looked up first, and the arguments have kept it
        have hreceiver := (hscope.resolve hv).mono hsize
        have hcall := m.call_performs hs' args scope.config hlookup.value.1 hreceiver
        exact (hcall.weaken mayFail_of_expected).map fun _ _ hw ↦ hw

theorem evalAll_performs {scope : Scope} {s : Session} (hs : s.store.Sound)
    (hscope : scope.Sound s.store) (es : List Expr) :
    Performs (editsAll scope es s) s (fun st args ↦ ∀ a ∈ args, a.Sound st)
      (evalAll scope es) (MayFail (wholeAll es)) := by
  match es with
  | [] => exact .pure hs fun _ ha ↦ nomatch ha
  | e :: es =>
    unfold editsAll evalAll
    apply ((eval_performs hs hscope e).weaken fun _ ↦ MayFail.and_left).bind_after
    intro a s' hsize hs' ha
    have hrest := evalAll_performs hs' (hscope.mono hsize) es
    refine (hrest.weaken fun _ ↦ MayFail.and_right).bind_quiet
      fun args s'' hsize' hs'' hargs ↦ .pure hs'' fun b hb ↦ ?_
    obtain rfl | hb := List.mem_cons.mp hb
    · exact ha.mono hsize'
    · exact hargs b hb

end

theorem value_performs {scope : Scope} {s : Session} (hs : s.store.Sound)
    (hscope : scope.Sound s.store) (e : Expr) :
    Performs (e.edits scope s) s Value.Sound (e.value scope) (MayFail e.whole) := by
  unfold value
  apply (eval_performs hs hscope e).bind_quiet
  intro a s' _ hs' ha
  split
  · exact .pure hs' ha
  · exact .fail hs' (.inl rfl)

end Expr

end WaveNotebook
