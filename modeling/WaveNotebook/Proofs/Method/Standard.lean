import WaveNotebook.Proofs.Signal.Analysis
import WaveNotebook.Proofs.Value.Sound

/-!
# The contract of the standard methods

Every method of the standard table, called on a sound receiver of its kind, keeps the contract of
computations on sessions. All of them but `set` edit nothing; a call of `set` that succeeds
carries out the one edit that its arguments tell, and one that fails carries out none.
-/

namespace WaveNotebook

open Run

/-- The row of a method list, as the methods of one kind are listed. -/
abbrev MethodRow := String × Handler × Int × Int

/-- An entry of a list of methods comes from one of its rows. -/
theorem MethodTable.row_of_mem {kind kind' : ValueKind} {m : Method} {methods : List MethodRow}
    (h : (kind, m) ∈ entriesOf kind' methods) :
    kind = kind' ∧ (m.name, m.handler, m.least, m.most) ∈ methods := by
  obtain ⟨row, hrow, heq⟩ := List.mem_map.mp h
  cases heq
  exact ⟨rfl, hrow⟩

/-- The row from which a method comes. -/
abbrev Method.row (m : Method) : MethodRow :=
  (m.name, m.handler, m.least, m.most)

/-- The values that have a method, each with the list in which the method is. -/
inductive MethodTable.StandardRow (m : Method) : Value → Prop
  | signal (s : Signal Float) : m.row ∈ Method.signalMethods → StandardRow m (.signal s)
  | matrix (h : Handle) : m.row ∈ Method.matrixMethods → StandardRow m (.matrix h)
  | modes (signals : List (Signal Float)) :
      m.row ∈ Method.modesMethods → StandardRow m (.modes signals)
  | metrics (values : List (String × Float)) :
      m.row ∈ Method.metricsMethods → StandardRow m (.metrics values)

/-- A method of the standard table is in the list of its receiver's kind. -/
theorem MethodTable.standardRow {m : Method} {v : Value}
    (hm : (v.kind, m) ∈ standard.entries) : StandardRow m v := by
  simp only [standard, List.mem_append] at hm
  obtain ((hm | hm) | hm) | hm := hm
  all_goals obtain ⟨hkind, hrow⟩ := row_of_mem hm
  · cases v with
    | signal s => exact .signal s hrow
    | _ => cases hkind
  · cases v with
    | matrix h => exact .matrix h hrow
    | _ => cases hkind
  · cases v with
    | modes signals => exact .modes signals hrow
    | _ => cases hkind
  · cases v with
    | metrics values => exact .metrics values hrow
    | _ => cases hkind

namespace Method

variable {session : Session} (hsession : session.store.Sound) (args : List Argument)
  (config : Config)

include hsession

/-! ## Methods that edit nothing -/

theorem signalMethods_perform {row : MethodRow} (hrow : row ∈ signalMethods) {s : Signal Float}
    (hs : s.Sound) : Performs [] session Value.Sound (row.2.1 (.signal s) args config) := by
  revert row
  unfold signalMethods
  simp only [List.forall_mem_cons, List.not_mem_nil, false_implies, implies_true, and_true,
    onSignal]
  refine ⟨?fft, ?getSpectrum, ?applyWindow, ?waveletTransform, ?decompose, ?analyze, ?multiply,
    ?add⟩
  case fft =>
    apply Performs.lift_bind hsession (signalFourier_yields s)
    intro g session' hsession' hg
    exact .newMatrix hsession' hg
  case getSpectrum => exact .lift_map hsession (signalSpectrum_yields hs) fun _ _ ht ↦ ht
  case applyWindow => exact .lift_map hsession (signalWindow_yields args hs) fun _ _ ht ↦ ht
  case waveletTransform =>
    apply Performs.lift_bind hsession (signalWavelet_yields s args)
    intro g session' hsession' hg
    exact .newMatrix hsession' hg
  case decompose =>
    refine .lift_bind hsession (decomposition_yields args) ?_
    rintro ⟨method, count⟩ session' hsession' -
    have hmodes := hs.decompose method count config.sifts.toInt
    dsimp only
    apply (Performs.note hsession' _).bind
    intro _ session'' _ hsession'' _
    exact .lift_map hsession'' hmodes fun _ _ h ↦ h
  case analyze => exact .lift_map hsession (signalAnalyze_yields s args) fun _ _ h ↦ h
  case multiply =>
    apply Performs.lift_bind hsession (numberArg_yields _ _)
    intro x session' hsession' _
    exact .lift_map hsession' (hs.multiply _) fun _ _ ht ↦ ht
  case add =>
    split
    · exact .lift_map hsession (hs.add _) fun _ _ ht ↦ ht
    · exact .fail hsession rfl

theorem add_performs (h : Handle) (a : Argument) :
    Performs [] session Value.Sound (h.add a) := by
  unfold Handle.add
  split
  · apply (Performs.grid hsession h).bind
    intro g session' _ hsession' hg
    apply (Performs.grid hsession' _).bind
    intro g' session'' _ hsession'' _
    apply Performs.lift_bind hsession'' (hg.1.add g')
    intro sum session''' hsession''' hsum
    exact .newMatrix hsession''' hsum
  · exact .fail hsession rfl

theorem multiply_performs (h : Handle) (a : Argument) :
    Performs [] session Value.Sound (h.multiply a) := by
  unfold Handle.multiply
  split
  · split
    · apply (Performs.grid hsession h).bind
      intro g session' _ hsession' hg
      apply Performs.lift_bind hsession' (hg.1.scale _)
      intro product session'' hsession'' hproduct
      exact .newMatrix hsession'' hproduct
    · exact .fail hsession rfl
  · apply (Performs.grid hsession h).bind
    intro g session' _ hsession' hg
    apply (Performs.grid hsession' _).bind
    intro g' session'' _ hsession'' hg'
    apply Performs.lift_bind hsession'' (hg.1.multiply hg'.1)
    intro product session''' hsession''' h
    exact .newMatrix hsession''' h
  · exact .fail hsession rfl

theorem matrixMethods_perform {row : MethodRow} (hrow : row ∈ matrixMethods)
    (hset : row.1 ≠ "set") (h : Handle) :
    Performs [] session Value.Sound (row.2.1 (.matrix h) args config) := by
  revert row
  unfold matrixMethods
  simp only [List.forall_mem_cons, List.not_mem_nil, false_implies, implies_true, and_true,
    onMatrix]
  refine ⟨fun _ ↦ ?add, fun _ ↦ ?multiply, fun _ ↦ ?transpose, fun _ ↦ ?get,
    fun hset ↦ absurd rfl hset⟩
  case add =>
    split
    · exact add_performs hsession _ _
    · exact .fail hsession rfl
  case multiply =>
    split
    · exact multiply_performs hsession _ _
    · exact multiply_performs hsession _ _
    · exact .fail hsession rfl
  case transpose =>
    apply (Performs.grid hsession h).bind
    intro g session' _ hsession' hg
    exact .newMatrix hsession' hg.1.transpose
  case get =>
    apply Performs.lift_bind hsession (indexArg_yields _ _)
    intro i session' hsession' _
    apply Performs.lift_bind hsession' (indexArg_yields _ _)
    intro j session'' hsession'' _
    apply (Performs.grid hsession'' h).bind
    intro g session''' _ hsession''' _
    exact .lift_map hsession''' (g.get_yields _ _) fun _ _ _ ↦ trivial

theorem modesMethods_perform {row : MethodRow} (hrow : row ∈ modesMethods)
    {signals : List (Signal Float)} (hsignals : SoundModes signals) :
    Performs [] session Value.Sound (row.2.1 (.modes signals) args config) := by
  revert row
  unfold modesMethods
  simp only [List.forall_mem_cons, List.not_mem_nil, false_implies, implies_true, and_true]
  refine ⟨?get, ?count⟩
  case get =>
    apply Performs.lift_bind hsession (indexArg_yields _ _)
    intro i session' hsession' _
    split
    · rename_i s hs
      split at hs
      · cases hs
      · exact .pure hsession' (hsignals.sound s (List.mem_of_getElem? hs))
    · exact .fail hsession' rfl
  case count => exact .pure hsession trivial

theorem metricsMethods_perform {row : MethodRow} (hrow : row ∈ metricsMethods)
    (values : List (String × Float)) :
    Performs [] session Value.Sound (row.2.1 (.metrics values) args config) := by
  revert row
  unfold metricsMethods
  simp only [List.forall_mem_cons, List.not_mem_nil, false_implies, implies_true, and_true]
  split
  · rename_i found name _ _
    have hmetric : Yields (fun _ ↦ True) (metric found name) := by
      unfold metric
      split
      · exact .ok trivial
      · exact .error rfl
    exact .lift_map hsession hmetric fun _ _ _ ↦ trivial
  · exact .fail hsession rfl

/-! ## Setting an entry -/

omit hsession

/-- The edit that a completed call of a method has made. -/
def editsOf (member : String) : Value → List Argument → List Edit
  | .matrix h, [.value (.number i), .value (.number j), .value (.number x)] =>
    if member = "set" then
      [⟨h, (Binary64.truncate i).toNat, (Binary64.truncate j).toNat, x⟩]
    else []
  | _, _ => []

theorem editsOf_of_ne {member : String} (hmember : member ≠ "set") (v : Value) :
    editsOf member v args = [] := by
  unfold editsOf
  split
  · exact if_neg hmember
  · rfl

theorem run_set (h : Handle) (row col value : Datum) (s : Session) :
    (h.set row col value).run s =
      match (s.store.grid h).set row col value with
      | .ok g => (.ok (.matrix h), { s with store := s.store.put h g })
      | .error e => (.error e, s) := by
  have hgrid : (Run.grid h).run s = (.ok (s.store.grid h), s) := rfl
  unfold Handle.set
  rw [run_bind_ok hgrid]
  cases (s.store.grid h).set row col value with
  | ok g => rfl
  | error e => rfl

include hsession

/-- A completed `set` is an edit with the given row, column and number. -/
theorem set_performs {h : Handle} (hh : h.index < session.store.grids.size) (i j : Int)
    (x : Float) :
    Performs (after (h.set (.integer i) (.integer j) (.number x)) session
        fun _ _ ↦ [⟨h, i.toNat, j.toNat, x⟩]) session Value.Sound
      (h.set (.integer i) (.integer j) (.number x)) := by
  have hset := (session.store.grid h).set_yields (.integer i) (.integer j) (.number x)
  have hrun := run_set h (.integer i) (.integer j) (.number x) session
  cases hresult : (session.store.grid h).set (.integer i) (.integer j) (.number x) with
  | error e =>
    rw [hresult] at hset hrun
    rw [after_error hrun]
    constructor
    · rw [hrun]
      exact .refl _
    · rw [hrun]
      exact hsession
    · rw [hrun]
      exact .error hset.fault
  | ok g =>
    rw [hresult] at hset hrun
    rw [after_ok hrun]
    obtain ⟨k, l, y, hi, hj, hx, hy, rfl⟩ := hset.value
    have hk : i = k := Option.some.inj (Except.ok.inj hi)
    have hl : j = l := Option.some.inj (Except.ok.inj hj)
    have hxy : x = y := by
      have hfilter : (some x).filter Binary64.isFinite = some y := Except.ok.inj hx
      exact Option.some.inj (Option.filter_eq_some_iff.mp hfilter).1
    subst hk hl hxy
    have hput := Performs.putGrid hsession h k l hy
    constructor
    · rw [hrun]
      exact hput.store
    · rw [hrun]
      exact hput.sound
    · rw [hrun]
      exact .ok (by rwa [Value.Sound, Store.size_put])

theorem setRow_performs {h : Handle} (hh : h.index < session.store.grids.size)
    {f : Handler} {least most : Int} (hf : ("set", f, least, most) ∈ matrixMethods)
    (hlength : least ≤ args.length ∧ args.length ≤ most) :
    Performs (after (f (.matrix h) args config) session
        fun _ _ ↦ editsOf "set" (.matrix h) args) session Value.Sound
      (f (.matrix h) args config) := by
  simp [matrixMethods] at hf
  obtain ⟨rfl, rfl, rfl⟩ := hf
  obtain ⟨a, b, c, rfl⟩ : ∃ a b c, args = [a, b, c] := by
    match args, hlength with
    | [a, b, c], _ => exact ⟨a, b, c, rfl⟩
  unfold onMatrix
  dsimp only
  apply Performs.lift_bind_last hsession (indexArg_yields _ _)
  intro i s₁ hsize₁ hs₁ hi
  apply Performs.lift_bind_last hs₁ (indexArg_yields _ _)
  intro j s₂ hsize₂ hs₂ hj
  apply Performs.lift_bind_last hs₂ (numberArg_yields _ _)
  intro x s₃ hsize₃ hs₃ hx
  -- the three arguments have turned out to be numbers, which makes them an edit
  obtain ⟨xi, ha, rfl⟩ := hi
  obtain ⟨xj, hb, rfl⟩ := hj
  have hedits : editsOf "set" (.matrix h) [a, b, c] =
      [⟨h, (Binary64.truncate xi).toNat, (Binary64.truncate xj).toNat, x⟩] := by
    cases ha
    cases hb
    cases hx
    rfl
  rw [hedits]
  exact set_performs hs₃ (by omega) _ _ x

/-! ## Calls -/

omit hsession

/-- The edits of a call from a session. -/
def edits (m : Method) (receiver : Value) (args : List Argument) (config : Config)
    (session : Session) : List Edit :=
  after (m.call receiver args config) session fun _ _ ↦ editsOf m.name receiver args

include hsession

/-- A call whose handler edits nothing. -/
theorem call_performs_of_quiet {m : Method} {receiver : Value}
    (hedits : editsOf m.name receiver args = [])
    (hm : Performs [] session Value.Sound (m.handler receiver args config)) :
    Performs (m.edits receiver args config session) session Value.Sound
      (m.call receiver args config) := by
  rw [edits, hedits, after_nil, call]
  split
  · exact hm
  · exact .fail hsession rfl

/-- The contract of every method of the standard table. -/
theorem call_performs {m : Method} {receiver : Value}
    (hm : (receiver.kind, m) ∈ MethodTable.standard.entries)
    (hreceiver : receiver.Sound session.store) :
    Performs (m.edits receiver args config session) session Value.Sound
      (m.call receiver args config) := by
  cases MethodTable.standardRow hm with
  | signal s hrow =>
    have hperforms := signalMethods_perform hsession args config hrow hreceiver
    exact call_performs_of_quiet hsession args config rfl hperforms
  | matrix h hrow =>
    by_cases hset : m.name = "set"
    · rw [row, hset] at hrow
      rw [edits, hset, call]
      split
      · rename_i htakes
        simp only [takes, Bool.and_eq_true, decide_eq_true_eq] at htakes
        exact setRow_performs hsession args config hreceiver hrow htakes
      · exact .fail hsession rfl
    · have hperforms := matrixMethods_perform hsession args config hrow hset h
      exact call_performs_of_quiet hsession args config (editsOf_of_ne args hset _) hperforms
  | modes signals hrow =>
    have hperforms := modesMethods_perform hsession args config hrow hreceiver
    exact call_performs_of_quiet hsession args config rfl hperforms
  | metrics values hrow =>
    have hperforms := metricsMethods_perform hsession args config hrow values
    exact call_performs_of_quiet hsession args config rfl hperforms

end Method

end WaveNotebook
