import WaveNotebook.Proofs.Method.Standard
import WaveNotebook.Proofs.Number.Rounding
import WaveNotebook.Proofs.Signal.Length
import WaveNotebook.Proofs.Signal.Modes
import WaveNotebook.Workspace.Evaluation

/-!
# The numbers of values

A number of a notebook is a number itself, an entry of metrics, or the number of modes. A property
of finite numbers and of entries passes from the numbers in the arguments of a call to those of its
result, since a method makes a number in these ways only; and metrics are an analysis of the signal
that is the receiver.
-/

namespace WaveNotebook

open Binary64 (isInteger isFinite_ofNat_truncate truncate)

/-- A statistic of samples under its name. -/
def Statistic.IsEntry (samples : List Float) (key : String) (x : Float) : Prop :=
  ∃ statistic : Statistic, statistic.name = key ∧ statistic.measure samples = .ok x

/-- Each analysis of a signal has a property. -/
def Signal.Analyses (M : List (String × Float) → Prop) (s : Signal Float) : Prop :=
  ∀ metrics windowSize values, s.analyze metrics windowSize = .ok values → M values

/-- A property of all finite numbers and of all entries of metrics that have a property. -/
structure Admissible (M : List (String × Float) → Prop) (P : Float → Prop) : Prop where
  finite : ∀ x, isFinite x = true → P x
  entry : ∀ values, M values → ∀ entry ∈ values, P entry.2

/-- A number has a property, metrics have one, and signals are short. A method counts modes, so
that their number has to be a finite double. -/
def Value.Holds (M : List (String × Float) → Prop) (P : Float → Prop) : Value → Prop
  | .number x => P x
  | .signal s => s.Short
  | .modes signals => isFinite (signals.length : Float) = true ∧ ∀ s ∈ signals, s.Short
  | .metrics values => M values
  | .matrix _ | .function _ => True

/-- A record without integers, as which options are read. -/
def Datum.Spelled (d : Datum) : Prop :=
  ∀ fields, d = .record fields → ∀ field ∈ fields, ∀ n, field.2 ≠ .integer n

def Argument.Holds (M : List (String × Float) → Prop) (P : Float → Prop) : Argument → Prop
  | .value v => v.Holds M P
  | .data d => d.Spelled

/-! ## What computations return -/

namespace Run

variable {α β : Type} {s : Session} {post : α → Prop} {post' : β → Prop} {x : Run α}
  {f : α → Run β}

def Returns (post : α → Prop) (s : Session) (x : Run α) : Prop :=
  Returned post (x.run s).1

namespace Returns

theorem bind (h : Returns post s x)
    (hf : ∀ a s', x.run s = (.ok a, s') → post a → Returns post' s' (f a)) :
    Returns post' s (x >>= f) := by
  unfold Returns at *
  cases hx : x.run s with
  | mk r s' =>
    rw [hx] at h
    cases r with
    | ok a =>
      rw [run_bind_ok hx]
      exact hf a s' hx h.value
    | error e =>
      rw [run_bind_error hx]
      exact .error trivial

theorem pure {a : α} (h : post a) : Returns post s (Pure.pure a) :=
  .ok h

theorem fail (fault : Fault) : Returns post s (Run.fail fault) :=
  .error trivial

theorem lift {r : Except Fault α} (h : Returned post r) : Returns post s (Run.lift r) :=
  h

theorem map {g : α → β} (h : Returns post s x) (hg : ∀ a, post a → post' (g a)) :
    Returns post' s (g <$> x) := by
  rw [← bind_pure_comp]
  exact h.bind fun a s' _ ha ↦ pure (hg a ha)

theorem self (x : Run α) (s : Session) : Returns (fun a ↦ (x.run s).1 = .ok a) s x :=
  Returned.self _

end Returns

end Run

open Run (Returns)

/-! ## Methods and builtins -/

section

variable {M : List (String × Float) → Prop} {P : Float → Prop} {session : Session}

theorem Run.returns_newMatrix (g : Grid Float) :
    Returns (Value.Holds M P) session (Run.newMatrix g) :=
  .ok trivial

theorem Run.returns_signal {r : Except Fault (Signal Float)} (h : Returned Signal.Short r) :
    Returns (Value.Holds M P) session (.signal <$> Run.lift r) :=
  (Returns.lift h).map fun _ h ↦ h

theorem Builtin.apply_returns (b : Builtin) (config : Config) (args : List Argument) :
    Returns (Value.Holds M P) session (b.apply config args) := by
  unfold Builtin.apply
  refine (Returns.self _ _).bind fun data s' _ _ ↦ ?_
  split
  case h_3 => exact Run.returns_signal (Signal.tone_returned ..)
  case h_4 => exact Run.returns_signal (Signal.tone_returned ..)
  case h_5 =>
    exact Run.returns_signal ((Returned.self _).bind fun sweep _ ↦ sweep.signal_returned)
  case h_8 => exact (Returns.self _ _).bind fun g s'' _ _ ↦ Run.returns_newMatrix g
  all_goals exact .fail _

end

namespace Signal

variable {s : Signal Float}

theorem addStatistic_returned {samples : List Float} {found : List (String × Float)}
    (hfound : ∀ entry ∈ found, Statistic.IsEntry samples entry.1 entry.2) (name : Datum) :
    Returned (fun found ↦ ∀ entry ∈ found, Statistic.IsEntry samples entry.1 entry.2)
      (addStatistic samples found name) := by
  unfold addStatistic
  refine ((lookupName_yields _ name).weaken fun _ _ ↦ trivial).bind fun o ho ↦ ?_
  cases o with
  | none => exact .ok hfound
  | some p =>
    obtain ⟨key, statistic⟩ := p
    obtain ⟨text, -, htext⟩ := ho _ rfl
    obtain ⟨_, hname, heq⟩ := Option.map_eq_some_iff.mp htext
    cases heq
    dsimp only
    split
    · rename_i x hx
      refine .ok fun entry hentry ↦ ?_
      obtain rfl | hentry := Record.mem_put hentry
      · exact ⟨statistic, Statistic.ofName?_eq_some_iff.mp hname, hx⟩
      · exact hfound entry hentry
    · exact .ok hfound
    · exact .error trivial

/-- The entries of an analysis are statistics under their names. -/
theorem analyze_returned (s : Signal Float) (metrics windowSize : Datum) :
    Returned (fun found ↦ ∀ entry ∈ found, Statistic.IsEntry s.samples entry.1 entry.2)
      (s.analyze metrics windowSize) := by
  unfold analyze statistics
  have hstatistics : Returned
      (fun found ↦ ∀ entry ∈ found, Statistic.IsEntry s.samples entry.1 entry.2)
      (do (← metricNames metrics).foldlM (addStatistic s.samples) []) :=
    (Returned.self _).bind fun names _ ↦
      .foldlM (fun _ h ↦ nomatch h) fun found name _ hfound ↦ addStatistic_returned hfound name
  split
  all_goals dsimp only
  all_goals split
  · exact .error trivial
  · exact (Returned.self _).bind fun _ _ ↦ .error trivial
  · exact hstatistics
  · exact (Returned.self _).bind fun _ _ ↦ hstatistics

theorem modeCountOf_integer {method : Datum} {n k : ℤ}
    (h : modeCountOf method (.integer n) = .ok k) : k = n := by
  unfold modeCountOf at h
  obtain ⟨text, -, h⟩ := bind_eq_ok_iff.mp h
  split at h
  · cases h
  · exact (Except.ok.inj h).symm

/-- A decomposition has as many modes as are asked for. -/
theorem decompose_returned (hshort : s.Short) (method : Datum) {n : ℤ}
    (hn : isFinite (n.toNat : Float) = true) (cap : ℤ) :
    Returned (fun signals ↦ isFinite (signals.length : Float) = true ∧ ∀ t ∈ signals, t.Short)
      (s.decompose method (.integer n) cap).2 := by
  unfold decompose
  split
  · exact .error trivial
  · rename_i k hk
    obtain rfl := modeCountOf_integer hk
    dsimp only
    refine (Returned.self _).bind fun found hfound ↦ ?_
    obtain ⟨-, -, hfailure, rfl⟩ := Sifting.modesOf_eq_ok_iff.mp hfound
    obtain ⟨halike, hcount⟩ := Sifting.decompose_modes cap.toNat k.toNat s.samples
    refine (hshort.modes (List.forall_mem_map.mpr halike)).mono fun signals hsignals ↦ ?_
    rw [hsignals.1, List.length_map, hcount hfailure]
    exact ⟨hn, hsignals.2⟩

end Signal

namespace Method

variable {M : List (String × Float) → Prop} {P : Float → Prop} {args : List Argument}
  {session : Session}

/-- Options hold no integers, so one that is read as an integer is an integral double. -/
theorem integerOption?_returned {options : Record} (hoptions : (Datum.record options).Spelled)
    (method key : String) :
    Returned (fun o ↦ ∀ d, o = some d → ∃ x, isInteger x = true ∧ d = .integer (truncate x))
      (integerOption? method key options) := by
  unfold integerOption? integerOption
  split
  · rename_i d hd
    have hd := hoptions options rfl _ (Record.mem_of_lookup hd)
    split
    · exact absurd rfl (hd _)
    · split
      · rename_i x _ hx
        refine .ok fun d' hd' ↦ ?_
        cases hd'
        exact ⟨x, hx, rfl⟩
      · exact .error trivial
    · exact .error trivial
  · exact .ok fun _ h ↦ nomatch h

theorem optionArgs_returned (hargs : ∀ a ∈ args, a.Holds M P) (method : String)
    (known : List String) :
    Returned (fun options ↦ (Datum.record options).Spelled) (optionArgs method known args) := by
  unfold optionArgs
  split
  · refine .ok fun fields hfields ↦ ?_
    cases hfields
    exact fun _ h ↦ nomatch h
  · split
    · exact .error trivial
    · exact .ok (hargs _ List.mem_cons_self)
  · exact .error trivial

/-- The number of modes that is asked for. -/
theorem decomposition_returned (hargs : ∀ a ∈ args, a.Holds M P) :
    Returned (fun p ↦ ∃ n : ℤ, p.2 = .integer n ∧ isFinite (n.toNat : Float) = true)
      (decomposition args) := by
  unfold decomposition
  refine (optionArgs_returned hargs _ _).bind fun options hoptions ↦ ?_
  refine (integerOption?_returned hoptions _ _).bind fun count hcount ↦ .ok ?_
  cases count with
  | none => exact ⟨1, rfl, by decide +kernel⟩
  | some d =>
    obtain ⟨x, hx, rfl⟩ := hcount d rfl
    exact ⟨truncate x, rfl, isFinite_ofNat_truncate hx⟩

theorem signalAnalyze_returned {s : Signal Float} (hs : s.Analyses M) :
    Returned M (signalAnalyze s args) := by
  unfold signalAnalyze
  refine (Returned.self _).bind fun options _ ↦ ?_
  split
  · exact .error trivial
  · exact .error trivial
  · refine (Returned.self _).bind fun names _ ↦ (Returned.self _).bind fun size _ ↦ ?_
    exact (Returned.self _).mono (hs names size)

theorem signalWindow_returned {s : Signal Float} (hshort : s.Short) :
    Returned Signal.Short (signalWindow s args) := by
  unfold signalWindow
  split
  · exact hshort.window _ _
  · refine (Returned.self _).bind fun options _ ↦ ?_
    split
    · exact .error trivial
    · exact (Returned.self _).bind fun length _ ↦ hshort.window _ _

theorem metric_returned {values : List (String × Float)}
    (h : ∀ entry ∈ values, P entry.2) (name : String) : Returned P (metric values name) := by
  unfold metric
  split
  · rename_i x hx
    exact .ok (h _ (Record.mem_of_lookup hx))
  · exact .error trivial

theorem signalMethods_return (hargs : ∀ a ∈ args, a.Holds M P) (config : Config) {row : MethodRow}
    (hrow : row ∈ signalMethods) {s : Signal Float} (hs : s.Analyses M) (hshort : s.Short) :
    Returns (Value.Holds M P) session (row.2.1 (.signal s) args config) := by
  revert row
  unfold signalMethods
  simp only [List.forall_mem_cons, List.not_mem_nil, false_implies, implies_true, and_true,
    onSignal]
  refine ⟨?fft, ?getSpectrum, ?applyWindow, ?waveletTransform, ?decompose, ?analyze, ?multiply,
    ?add⟩
  case fft => exact (Returns.self _ _).bind fun g _ _ _ ↦ Run.returns_newMatrix g
  case getSpectrum =>
    refine Run.returns_signal (s.magnitudeSpectrum_returned.bind fun magnitudes hlength ↦ ?_)
    exact Signal.ofSamples_returned (hlength.trans_lt hshort) _ _
  case applyWindow => exact Run.returns_signal (signalWindow_returned hshort)
  case waveletTransform => exact (Returns.self _ _).bind fun g _ _ _ ↦ Run.returns_newMatrix g
  case decompose =>
    refine (Returns.lift (decomposition_returned hargs)).bind ?_
    rintro ⟨method, count⟩ session' - ⟨n, rfl, hn⟩
    refine (Returns.self _ _).bind fun _ _ _ _ ↦ ?_
    exact (Returns.lift (Signal.decompose_returned hshort method hn _)).map fun _ h ↦ h
  case analyze => exact (Returns.lift (signalAnalyze_returned hs)).map fun _ h ↦ h
  case multiply =>
    exact (Returns.self _ _).bind fun x _ _ _ ↦ Run.returns_signal (hshort.multiply (.number x))
  case add =>
    split
    · exact Run.returns_signal (hshort.add _)
    · exact .fail _

theorem add_returns (h : Handle) (a : Argument) :
    Returns (Value.Holds M P) session (h.add a) := by
  unfold Handle.add
  split
  · refine (Returns.self _ _).bind fun _ _ _ _ ↦ (Returns.self _ _).bind fun _ _ _ _ ↦ ?_
    exact (Returns.self _ _).bind fun g _ _ _ ↦ Run.returns_newMatrix g
  · exact .fail _

theorem multiply_returns (h : Handle) (a : Argument) :
    Returns (Value.Holds M P) session (h.multiply a) := by
  unfold Handle.multiply
  split
  · split
    · refine (Returns.self _ _).bind fun _ _ _ _ ↦ ?_
      exact (Returns.self _ _).bind fun g _ _ _ ↦ Run.returns_newMatrix g
    · exact .fail _
  · refine (Returns.self _ _).bind fun _ _ _ _ ↦ (Returns.self _ _).bind fun _ _ _ _ ↦ ?_
    exact (Returns.self _ _).bind fun g _ _ _ ↦ Run.returns_newMatrix g
  · exact .fail _

section

variable (hP : ∀ x, isFinite x = true → P x)

include hP

/-- An entry of a matrix in the store. -/
theorem get_returns (hsession : session.store.Sound) (h : Handle) (row col : Datum) :
    Returns (Value.Holds M P) session (h.get row col) := by
  unfold Handle.get
  refine (Returns.self _ _).bind fun g session' hg _ ↦ ?_
  have hsound : g.Sound := by
    cases hg
    exact hsession.grid h
  have hentry : Returned P (g.get row col) := by
    unfold Grid.get
    exact (Returned.self _).bind fun p _ ↦ .ok (hP _ (hsound.finite _ _))
  exact (Returns.lift hentry).map fun _ h ↦ h

theorem matrixMethods_return (hsession : session.store.Sound) (config : Config) {row : MethodRow}
    (hrow : row ∈ matrixMethods) (h : Handle) :
    Returns (Value.Holds M P) session (row.2.1 (.matrix h) args config) := by
  revert row
  unfold matrixMethods
  simp only [List.forall_mem_cons, List.not_mem_nil, false_implies, implies_true, and_true,
    onMatrix]
  refine ⟨?add, ?multiply, ?transpose, ?get, ?set⟩
  case add =>
    split
    · exact add_returns _ _
    · exact .fail _
  case multiply =>
    split
    · exact multiply_returns _ _
    · exact multiply_returns _ _
    · exact .fail _
  case transpose => exact (Returns.self _ _).bind fun g _ _ _ ↦ Run.returns_newMatrix _
  case get =>
    -- neither of the two index checks touches the session
    refine (Returns.self _ _).bind fun i session' hi _ ↦ ?_
    refine (Returns.self _ _).bind fun j session'' hj _ ↦ ?_
    obtain rfl := (Prod.mk.inj hi).2
    obtain rfl := (Prod.mk.inj hj).2
    exact get_returns hP hsession h _ _
  case set =>
    refine (Returns.self _ _).bind fun i _ _ _ ↦ (Returns.self _ _).bind fun j _ _ _ ↦ ?_
    refine (Returns.self _ _).bind fun x _ _ _ ↦ (Returns.self _ _).bind fun g _ _ _ ↦ ?_
    exact (Returns.self _ _).bind fun g _ _ _ ↦ (Returns.self _ _).bind fun _ _ _ _ ↦ .pure trivial

theorem modesMethods_return (config : Config) {row : MethodRow} (hrow : row ∈ modesMethods)
    {signals : List (Signal Float)} (hsignals : (Value.modes signals).Holds M P) :
    Returns (Value.Holds M P) session (row.2.1 (.modes signals) args config) := by
  revert row
  unfold modesMethods
  simp only [List.forall_mem_cons, List.not_mem_nil, false_implies, implies_true, and_true]
  refine ⟨?get, ?count⟩
  case get =>
    refine (Returns.self _ _).bind fun i _ _ _ ↦ ?_
    split
    · rename_i s hs
      refine .pure (hsignals.2 s ?_)
      split at hs
      · cases hs
      · exact List.mem_of_getElem? hs
    · exact .fail _
  case count => exact .pure (hP _ hsignals.1)

end

theorem metricsMethods_return (config : Config) {row : MethodRow} (hrow : row ∈ metricsMethods)
    {values : List (String × Float)} (hvalues : ∀ entry ∈ values, P entry.2) :
    Returns (Value.Holds M P) session (row.2.1 (.metrics values) args config) := by
  revert row
  unfold metricsMethods
  simp only [List.forall_mem_cons, List.not_mem_nil, false_implies, implies_true, and_true]
  split
  · rename_i heq _
    cases heq
    exact (Returns.lift (metric_returned hvalues _)).map fun _ h ↦ h
  · exact .fail _

theorem call_returns_of_handler {m : Method} {receiver : Value} {config : Config}
    (hm : Returns (Value.Holds M P) session (m.handler receiver args config)) :
    Returns (Value.Holds M P) session (m.call receiver args config) := by
  unfold call
  split
  · exact hm
  · exact .fail _

/-- The receivers whose methods count and index, but measure nothing. -/
def IsCollection (v : Value) : Prop :=
  v.kind = .matrix ∨ v.kind = .modes

/-- The numbers that a matrix or modes give back are finite. -/
theorem call_returns_of_isCollection (hP : ∀ x, isFinite x = true → P x)
    (hsession : session.store.Sound) {m : Method} {receiver : Value}
    (hm : (receiver.kind, m) ∈ MethodTable.standard.entries) (hkind : IsCollection receiver)
    (hreceiver : receiver.Holds M P) (args : List Argument) (config : Config) :
    Returns (Value.Holds M P) session (m.call receiver args config) := by
  refine call_returns_of_handler ?_
  cases MethodTable.standardRow hm with
  | matrix h hrow => exact matrixMethods_return hP hsession config hrow h
  | modes signals hrow => exact modesMethods_return hP config hrow hreceiver
  | _ => simp [IsCollection, Value.kind] at hkind

/-- The numbers that metrics give back are their entries. -/
theorem call_returns_of_metrics {m : Method} {values : List (String × Float)}
    (hm : ((Value.metrics values).kind, m) ∈ MethodTable.standard.entries)
    (hvalues : ∀ entry ∈ values, P entry.2) (args : List Argument) (config : Config) :
    Returns (Value.Holds M P) session (m.call (.metrics values) args config) := by
  refine call_returns_of_handler ?_
  cases MethodTable.standardRow hm with
  | metrics values hrow => exact metricsMethods_return config hrow hvalues

theorem call_returns (hP : Admissible M P) (hsession : session.store.Sound) {m : Method}
    {receiver : Value} (hm : (receiver.kind, m) ∈ MethodTable.standard.entries)
    (hanalyses : ∀ s, receiver = .signal s → s.Analyses M) (hreceiver : receiver.Holds M P)
    (hargs : ∀ a ∈ args, a.Holds M P) (config : Config) :
    Returns (Value.Holds M P) session (m.call receiver args config) := by
  cases MethodTable.standardRow hm with
  | signal s hrow =>
    have hs := hanalyses s rfl
    exact call_returns_of_handler (signalMethods_return hargs config hrow hs hreceiver)
  | matrix h =>
    exact call_returns_of_isCollection hP.finite hsession hm (.inl rfl) hreceiver args config
  | modes signals =>
    exact call_returns_of_isCollection hP.finite hsession hm (.inr rfl) hreceiver args config
  | metrics values =>
    exact call_returns_of_metrics hm (hP.entry values hreceiver) args config

end Method

end WaveNotebook
