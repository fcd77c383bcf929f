import WaveNotebook.Proofs.Method.Standard
import WaveNotebook.Proofs.Value.Paired

/-!
# The standard methods on paired stores

Every method of the standard table mirrors itself on paired receivers and arguments. What it reads
from its arguments is either no handle at all, and so the same on both sides, or a handle that it
looks up.
-/

namespace WaveNotebook

open Run

namespace Method

variable {R : Pairing} {args args' : List Argument}

/-! ## What methods read from their arguments -/

section

variable (hargs : List.Forall₂ (Argument.Paired R) args args')

include hargs

theorem optionArgs_eq (method : String) (known : List String) :
    optionArgs method known args' = optionArgs method known args := by
  cases hargs with
  | nil => rfl
  | cons ha _ =>
    cases ha with
    | value hv =>
      unfold optionArgs
      dsimp only
      rw [(Argument.Paired.value hv).describe_eq]
    | data d => cases d <;> rfl

theorem paired_argAt (i : Nat) : (argAt args i).Paired R (argAt args' i) := by
  unfold argAt
  induction hargs generalizing i with
  | nil => exact .data _
  | cons ha _ ih =>
    cases i with
    | zero => exact ha
    | succ i => simpa using ih i

theorem signalWindow_eq (s : Signal Float) : signalWindow s args' = signalWindow s args := by
  have hoptions := optionArgs_eq hargs "applyWindow" ["type", "length"]
  cases hargs with
  | nil => rfl
  | cons ha _ =>
    cases ha with
    | value hv =>
      unfold signalWindow
      dsimp only
      rw [hoptions]
    | data d => cases d <;> rfl

theorem signalWavelet_eq (s : Signal Float) : signalWavelet s args' = signalWavelet s args := by
  unfold signalWavelet
  rw [optionArgs_eq hargs]

theorem decomposition_eq : decomposition args' = decomposition args := by
  unfold decomposition
  rw [optionArgs_eq hargs]

theorem signalAnalyze_eq (s : Signal Float) : signalAnalyze s args' = signalAnalyze s args := by
  unfold signalAnalyze
  rw [optionArgs_eq hargs]

end

theorem numberArg_eq {a a' : Argument} (ha : a.Paired R a') (method : String) :
    numberArg method a' = numberArg method a := by
  cases ha with
  | value hv => cases hv <;> rfl
  | data d => rfl

theorem indexArg_eq {a a' : Argument} (ha : a.Paired R a') (method : String) :
    indexArg method a' = indexArg method a := by
  unfold indexArg
  rw [numberArg_eq ha]

/-! ## Operations on matrices -/

section

variable {s t : Session} (hst : s.store.Paired R t.store) {h k : Handle} (hhk : R h k)

include hst hhk

theorem add_mirror {a a' : Argument} (ha : a.Paired R a') :
    Mirrors R s t Value.Paired (h.add a) (k.add a') := by
  cases ha with
  | value hv =>
    cases hv with
    | matrix hR =>
      refine .grid_bind hst hhk fun g ↦ .grid_bind hst hR fun g' ↦ ?_
      exact .lift_bind fun sum ↦ .newMatrix hst sum
    | _ => exact .fail
  | data d => exact .fail

theorem multiply_mirror {a a' : Argument} (ha : a.Paired R a') :
    Mirrors R s t Value.Paired (h.multiply a) (k.multiply a') := by
  cases ha with
  | value hv =>
    cases hv with
    | number x =>
      unfold Handle.multiply
      dsimp only
      split
      · exact .grid_bind hst hhk fun g ↦ .lift_bind fun product ↦ .newMatrix hst product
      · exact .fail
    | matrix hR =>
      refine .grid_bind hst hhk fun g ↦ .grid_bind hst hR fun g' ↦ ?_
      exact .lift_bind fun product ↦ .newMatrix hst product
    | _ => exact .fail
  | data d => exact .fail

theorem transpose_mirror : Mirrors R s t Value.Paired h.transpose k.transpose :=
  .grid_bind hst hhk fun g ↦ .newMatrix hst g.transpose

theorem get_mirror (row col : Datum) :
    Mirrors R s t Value.Paired (h.get row col) (k.get row col) :=
  .grid_bind hst hhk fun _ ↦ .lift_map hst .number

/-- Both matrices get the entry. -/
theorem set_mirror (row col value : Datum) :
    Mirrors R s t Value.Paired (h.set row col value) (k.set row col value) := by
  refine .grid_bind hst hhk fun g ↦ .lift_bind fun g' ↦ ?_
  refine (Mirrors.putGrid hst hhk g').bind fun R' s' t' _ _ _ hst' hhk' ↦ ?_
  exact .pure hst' (.matrix hhk')

end

/-! ## Methods -/

section

variable {s t : Session} (hst : s.store.Paired R t.store)
  (hargs : List.Forall₂ (Argument.Paired R) args args') (config : Config)

include hst hargs

theorem signalMethods_mirror {row : MethodRow} (hrow : row ∈ signalMethods) (sig : Signal Float) :
    Mirrors R s t Value.Paired (row.2.1 (.signal sig) args config)
      (row.2.1 (.signal sig) args' config) := by
  revert row
  unfold signalMethods
  simp only [List.forall_mem_cons, List.not_mem_nil, false_implies, implies_true, and_true,
    onSignal]
  refine ⟨?fft, ?getSpectrum, ?applyWindow, ?waveletTransform, ?decompose, ?analyze, ?multiply,
    ?add⟩
  case fft => exact .lift_bind fun g ↦ .newMatrix hst g
  case getSpectrum => exact .lift_map hst .signal
  case applyWindow =>
    rw [signalWindow_eq hargs]
    exact .lift_map hst .signal
  case waveletTransform =>
    rw [signalWavelet_eq hargs]
    exact .lift_bind fun g ↦ .newMatrix hst g
  case decompose =>
    rw [decomposition_eq hargs]
    refine .lift_bind fun p ↦ ?_
    refine (Mirrors.note hst _).bind fun R' s' t' _ _ _ hst' _ ↦ ?_
    exact .lift_map hst' .modes
  case analyze =>
    rw [signalAnalyze_eq hargs]
    exact .lift_map hst .metrics
  case multiply =>
    rw [numberArg_eq (paired_argAt hargs 0)]
    exact .lift_bind fun x ↦ .lift_map hst .signal
  case add =>
    have ha := paired_argAt hargs 0
    generalize argAt args 0 = a at ha ⊢
    generalize argAt args' 0 = a' at ha ⊢
    cases ha with
    | value hv =>
      cases hv with
      | signal other => exact .lift_map hst .signal
      | _ => exact .fail
    | data d => exact .fail

theorem matrixMethods_mirror {row : MethodRow} (hrow : row ∈ matrixMethods) {h k : Handle}
    (hhk : R h k) :
    Mirrors R s t Value.Paired (row.2.1 (.matrix h) args config)
      (row.2.1 (.matrix k) args' config) := by
  revert row
  unfold matrixMethods
  simp only [List.forall_mem_cons, List.not_mem_nil, false_implies, implies_true, and_true,
    onMatrix]
  refine ⟨?add, ?multiply, ?transpose, ?get, ?set⟩
  case add =>
    have ha := paired_argAt hargs 0
    generalize argAt args 0 = a at ha ⊢
    generalize argAt args' 0 = a' at ha ⊢
    cases ha with
    | value hv =>
      cases hv with
      | matrix hR => exact add_mirror hst hhk (.value (.matrix hR))
      | _ => exact .fail
    | data d => exact .fail
  case multiply =>
    have ha := paired_argAt hargs 0
    generalize argAt args 0 = a at ha ⊢
    generalize argAt args' 0 = a' at ha ⊢
    cases ha with
    | value hv =>
      cases hv with
      | number x => exact multiply_mirror hst hhk (.value (.number x))
      | matrix hR => exact multiply_mirror hst hhk (.value (.matrix hR))
      | _ => exact .fail
    | data d => exact .fail
  case transpose => exact transpose_mirror hst hhk
  case get =>
    rw [indexArg_eq (paired_argAt hargs 0), indexArg_eq (paired_argAt hargs 1)]
    exact .lift_bind fun i ↦ .lift_bind fun j ↦ get_mirror hst hhk _ _
  case set =>
    rw [indexArg_eq (paired_argAt hargs 0), indexArg_eq (paired_argAt hargs 1),
      numberArg_eq (paired_argAt hargs 2)]
    exact .lift_bind fun i ↦ .lift_bind fun j ↦ .lift_bind fun x ↦ set_mirror hst hhk _ _ _

theorem modesMethods_mirror {row : MethodRow} (hrow : row ∈ modesMethods)
    (signals : List (Signal Float)) :
    Mirrors R s t Value.Paired (row.2.1 (.modes signals) args config)
      (row.2.1 (.modes signals) args' config) := by
  revert row
  unfold modesMethods
  simp only [List.forall_mem_cons, List.not_mem_nil, false_implies, implies_true, and_true]
  refine ⟨?get, ?count⟩
  case get =>
    rw [indexArg_eq (paired_argAt hargs 0)]
    refine .lift_bind fun i ↦ ?_
    split
    · exact .pure hst (.signal _)
    · exact .fail
  case count => exact .pure hst (.number _)

theorem metricsMethods_mirror {row : MethodRow} (hrow : row ∈ metricsMethods)
    (values : List (String × Float)) :
    Mirrors R s t Value.Paired (row.2.1 (.metrics values) args config)
      (row.2.1 (.metrics values) args' config) := by
  revert row
  unfold metricsMethods
  simp only [List.forall_mem_cons, List.not_mem_nil, false_implies, implies_true, and_true]
  have ha := paired_argAt hargs 0
  generalize argAt args 0 = a at ha ⊢
  generalize argAt args' 0 = a' at ha ⊢
  cases ha with
  | value hv => exact .fail
  | data d =>
    cases d with
    | text name => exact .lift_map hst .number
    | _ => exact .fail

/-- A call of a standard method. -/
theorem call_mirror {m : Method} {v v' : Value} (hv : v.Paired R v')
    (hm : (v.kind, m) ∈ MethodTable.standard.entries) :
    Mirrors R s t Value.Paired (m.call v args config) (m.call v' args' config) := by
  have hlength : args'.length = args.length := hargs.length_eq.symm
  unfold call
  rw [hlength]
  split
  · cases MethodTable.standardRow hm with
    | signal s hrow =>
      cases hv
      exact signalMethods_mirror hst hargs config hrow s
    | matrix h hrow =>
      cases hv with
      | matrix hR => exact matrixMethods_mirror hst hargs config hrow hR
    | modes signals hrow =>
      cases hv
      exact modesMethods_mirror hst hargs config hrow signals
    | metrics values hrow =>
      cases hv
      exact metricsMethods_mirror hst hargs config hrow values
  · exact .fail

end

end Method

end WaveNotebook
