import WaveNotebook.Proofs.Grid.Place
import WaveNotebook.Proofs.Signal.Analysis

/-!
# Statistics by their names

An analysis takes the names one after the other. A name adds its statistic if there is one of that
name and the signal has it; so the result has each name once, in the order of the first requests,
and the value of a name is a matter of the samples alone. Only the square of the variance, which
the kurtosis is divided by, can be out of the range of doubles.
-/

namespace WaveNotebook

/-! ## Statistics of samples -/

namespace Statistic

variable {samples : List Float} {statistic : Statistic} {name : String}

def varianceOf (samples : List Float) : Float :=
  mean ((samples.map (· - mean samples)).map fun c ↦ c * c)

/-- The value of a statistic, if the samples have it. -/
def valueOf? (samples : List Float) : Statistic → Option Float
  | rms => some (rmsOf samples)
  | peak => some (peakOf samples)
  | crest =>
    if rmsOf samples == ((0 : ℕ) : Float) then none else some (peakOf samples / rmsOf samples)
  | kurtosis =>
    if varianceOf samples == ((0 : ℕ) : Float) then none
    else
      let fourth := mean ((samples.map (· - mean samples)).map Elementary.fourthPower)
      some (fourth / (varianceOf samples * varianceOf samples))

/-- The value of the statistic of a name. -/
def named? (samples : List Float) (name : String) : Option Float :=
  (ofName? name).bind (valueOf? samples)

/-- Why a variance that is not zero has no square to divide by: it is too great for a double, or
it is so small that it becomes zero. -/
def squareFault? (samples : List Float) : Option NumericFault :=
  let variance := varianceOf samples
  let square := variance * variance
  if variance == ((0 : ℕ) : Float) then none
  else if isFinite variance && !isFinite square then some .hugeSquare
  else if square == ((0 : ℕ) : Float) then some .zeroDivision
  else none

theorem varianceOf_of_squareFault? {fault : NumericFault} (h : squareFault? samples = some fault) :
    (varianceOf samples == ((0 : ℕ) : Float)) = false := by
  rw [Bool.eq_false_iff]
  intro hzero
  unfold squareFault? at h
  rw [if_pos hzero] at h
  cases h

theorem ofName?_eq_none_iff : ofName? name = none ↔ name ∉ all.map Statistic.name := by
  unfold ofName?
  rw [List.find?_eq_none]
  simp

theorem kurtosisOf_eq (samples : List Float) :
    kurtosisOf samples = match squareFault? samples, valueOf? samples kurtosis with
      | some fault, _ => .error (.numeric fault)
      | none, some x => .ok x
      | none, none => .error (.algorithm .constantSignal) := by
  unfold kurtosisOf squareFault? valueOf? varianceOf
  dsimp only
  split
  · rfl
  · split
    · rfl
    · split <;> rfl

/-- A statistic is measured, or it is undefined, if no square is out of range. -/
theorem measure_cases (hne : samples ≠ [])
    (hsquare : statistic = kurtosis → squareFault? samples = none) :
    (∃ x, valueOf? samples statistic = some x ∧ statistic.measure samples = .ok x) ∨
      valueOf? samples statistic = none ∧
        ∃ fault, statistic.measure samples = .error (.algorithm fault) := by
  unfold measure
  rw [if_neg (by simpa using hne)]
  cases statistic with
  | rms => exact .inl ⟨_, rfl, rfl⟩
  | peak => exact .inl ⟨_, rfl, rfl⟩
  | crest =>
    unfold valueOf? crestOf
    dsimp only
    split
    · exact .inr ⟨rfl, _, rfl⟩
    · exact .inl ⟨_, rfl, rfl⟩
  | kurtosis =>
    dsimp only
    rw [kurtosisOf_eq, hsquare rfl]
    cases valueOf? samples kurtosis with
    | some x => exact .inl ⟨x, rfl, rfl⟩
    | none => exact .inr ⟨rfl, _, rfl⟩

theorem measure_kurtosis_of_squareFault? (hne : samples ≠ []) {fault : NumericFault}
    (h : squareFault? samples = some fault) :
    kurtosis.measure samples = .error (.numeric fault) := by
  unfold measure
  rw [if_neg (by simpa using hne)]
  dsimp only
  rw [kurtosisOf_eq, h]

theorem valueOf?_eq_none_iff : valueOf? samples statistic = none ↔
    statistic = crest ∧ (rmsOf samples == ((0 : ℕ) : Float)) = true ∨
      statistic = kurtosis ∧ (varianceOf samples == ((0 : ℕ) : Float)) = true := by
  unfold valueOf?
  cases statistic with
  | rms => simp
  | peak => simp
  | crest =>
    dsimp only
    split <;> simp_all
  | kurtosis =>
    dsimp only
    split <;> simp_all

/-- The names without a value. -/
theorem named?_eq_none_iff : named? samples name = none ↔
    name ∉ all.map Statistic.name ∨
      name = "crest" ∧ (rmsOf samples == ((0 : ℕ) : Float)) = true ∨
      name = "kurtosis" ∧ (varianceOf samples == ((0 : ℕ) : Float)) = true := by
  unfold named?
  cases hfind : ofName? name with
  | none => exact iff_of_true rfl (.inl (ofName?_eq_none_iff.mp hfind))
  | some statistic =>
    have hknown : ¬name ∉ all.map Statistic.name := by
      rw [← ofName?_eq_none_iff, hfind]
      exact Option.some_ne_none _
    obtain rfl := ofName?_eq_some_iff.mp hfind
    rw [Option.bind_some, valueOf?_eq_none_iff, or_iff_right hknown]
    cases statistic <;> simp [Statistic.name]

end Statistic

/-! ## Analyses -/

theorem lookupName_text {β : Type} (find : String → Option β) (name : String) :
    lookupName find (.text name) = .ok (find name) := rfl

namespace Signal

variable {samples : List Float} {found : List (String × Float)} {name : String}

/-- A name puts the value of its statistic. -/
theorem addStatistic_eq (hne : samples ≠ [])
    (hsquare : name = "kurtosis" → Statistic.squareFault? samples = none) :
    addStatistic samples found (.text name) =
      .ok ((Statistic.named? samples name).elim found (Record.put found name)) := by
  unfold addStatistic
  rw [lookupName_text, Statistic.named?]
  dsimp only [Bind.bind, Except.bind]
  cases hfind : Statistic.ofName? name with
  | none => rfl
  | some statistic =>
    have hkurtosis : statistic = .kurtosis → Statistic.squareFault? samples = none := by
      rintro rfl
      exact hsquare (Statistic.ofName?_eq_some_iff.mp hfind).symm
    rw [Option.map_some]
    dsimp only [Option.bind]
    obtain ⟨x, hvalue, hmeasure⟩ | ⟨hvalue, fault, hmeasure⟩ :=
      Statistic.measure_cases hne hkurtosis
    · rw [hvalue, hmeasure]
      rfl
    · rw [hvalue, hmeasure]
      rfl

theorem addStatistic_kurtosis (hne : samples ≠ []) {fault : NumericFault}
    (h : Statistic.squareFault? samples = some fault) :
    addStatistic samples found (.text "kurtosis") = .error (.numeric fault) := by
  have hfind : Statistic.ofName? "kurtosis" = some .kurtosis := rfl
  unfold addStatistic
  rw [lookupName_text, hfind, Option.map_some]
  dsimp only [Bind.bind, Except.bind]
  rw [Statistic.measure_kurtosis_of_squareFault? hne h]

/-- Behind names that have been taken, the other ones are taken too. -/
theorem foldlM_addStatistic (hne : samples ≠ []) (taken : List String) {names : List String}
    (hsquare : "kurtosis" ∈ names → Statistic.squareFault? samples = none) :
    (names.map Datum.text).foldlM (addStatistic samples)
        (Record.ofNames (Statistic.named? samples) taken) =
      .ok (Record.ofNames (Statistic.named? samples) (taken ++ names)) := by
  induction names generalizing taken with
  | nil =>
    rw [List.append_nil]
    rfl
  | cons name names ih =>
    have hfirst : name = "kurtosis" → Statistic.squareFault? samples = none := by
      rintro rfl
      exact hsquare List.mem_cons_self
    rw [List.map_cons, List.foldlM_cons, addStatistic_eq hne hfirst, ← Record.ofNames_concat]
    have hrest := ih (taken ++ [name]) fun h ↦ hsquare (List.mem_cons_of_mem _ h)
    rw [List.append_assoc, List.singleton_append] at hrest
    exact hrest

/-- The first kurtosis fails, whatever has been asked for before it. -/
theorem foldlM_addStatistic_of_squareFault? (hne : samples ≠ []) {fault : NumericFault}
    (h : Statistic.squareFault? samples = some fault) {names : List String}
    (hmem : "kurtosis" ∈ names) (found : List (String × Float)) :
    (names.map Datum.text).foldlM (addStatistic samples) found = .error (.numeric fault) := by
  induction names generalizing found with
  | nil => cases hmem
  | cons name names ih =>
    rw [List.map_cons, List.foldlM_cons]
    by_cases hname : name = "kurtosis"
    · subst hname
      rw [addStatistic_kurtosis hne h]
      rfl
    · rw [addStatistic_eq hne fun heq ↦ absurd heq hname]
      exact ih (List.mem_of_ne_of_mem (Ne.symm hname) hmem) _

/-- A window size that is absent or a positive integer. -/
inductive IsWindowSize : Datum → Prop
  | absent : IsWindowSize .null
  | integer {n : ℤ} (h : 1 ≤ n) : IsWindowSize (.integer n)
  | number {x : Float} {n : ℤ} (hx : Binary64.Equals x n) (h : 1 ≤ n) : IsWindowSize (.number x)

theorem positiveInteger_eq {d : Datum} {n : ℤ} (hd : d.isNumber = true) (hn : d.IsInteger n)
    (h : 1 ≤ n) (fault : SignalFault) : positiveInteger d fault = .ok n.toNat := by
  unfold positiveInteger
  rw [hd, Datum.integer?_eq_ok_some_iff.mpr hn]
  exact if_pos h

/-- The window size makes no difference. -/
theorem statistics_eq {s : Signal Float} (hs : s.samples ≠ []) (names : Except Fault (List Datum))
    {windowSize : Datum} (hwindow : IsWindowSize windowSize) :
    s.statistics names windowSize = names >>= (·.foldlM (addStatistic s.samples) []) := by
  unfold statistics
  have hempty : s.samples.isEmpty = false := by simpa using hs
  cases hwindow with
  | absent =>
    rw [hempty]
    rfl
  | integer h =>
    rw [hempty]
    dsimp only
    rw [positiveInteger_eq rfl (.integer _) h]
    rfl
  | number hx h =>
    rw [hempty]
    dsimp only
    rw [positiveInteger_eq rfl (.number hx) h]
    rfl

theorem analyze_eq_foldlM {s : Signal Float} (hs : s.samples ≠ []) (names : List String)
    {windowSize : Datum} (hwindow : IsWindowSize windowSize) :
    s.analyze (.list (names.map .text)) windowSize =
      (names.map Datum.text).foldlM (addStatistic s.samples) [] := by
  rw [analyze, statistics_eq hs _ hwindow]
  rfl

theorem analyze_of_squareFault? {s : Signal Float} (hs : s.samples ≠ []) (names : List String)
    {windowSize : Datum} (hwindow : IsWindowSize windowSize) (hmem : "kurtosis" ∈ names)
    {fault : NumericFault} (h : Statistic.squareFault? s.samples = some fault) :
    s.analyze (.list (names.map .text)) windowSize = .error (.numeric fault) := by
  rw [analyze_eq_foldlM hs names hwindow, foldlM_addStatistic_of_squareFault? hs h hmem]

/-- An analysis fails if the kurtosis is asked for and the square of the variance is out of range.
Otherwise it answers the names of the statistics that the signal has, each once and in the order of
the first requests, with values that do not depend on the other requests. -/
theorem analyze_requested {s : Signal Float} (hs : s.samples ≠ []) (names : List String)
    {windowSize : Datum} (hwindow : IsWindowSize windowSize) :
    (("kurtosis" ∈ names → Statistic.squareFault? s.samples = none) →
        s.analyze (.list (names.map .text)) windowSize =
          .ok (Record.ofNames (Statistic.named? s.samples) names)) ∧
      (∀ fault, "kurtosis" ∈ names → Statistic.squareFault? s.samples = some fault →
        s.analyze (.list (names.map .text)) windowSize = .error (.numeric fault)) ∧
      ∀ name, Statistic.named? s.samples name = none ↔
        name ∉ Statistic.all.map Statistic.name ∨
          name = "crest" ∧ (Statistic.rmsOf s.samples == ((0 : ℕ) : Float)) = true ∨
          name = "kurtosis" ∧ (Statistic.varianceOf s.samples == ((0 : ℕ) : Float)) = true := by
  refine ⟨fun hsquare ↦ ?_, fun _ hmem ↦ analyze_of_squareFault? hs names hwindow hmem,
    fun name ↦ Statistic.named?_eq_none_iff⟩
  rw [analyze_eq_foldlM hs names hwindow]
  exact foldlM_addStatistic hs [] hsquare

/-- Names are asked for twice, and one of them is unknown. -/
theorem analyze_requested_repeatedNames :
    (⟨[0.0, 2.0], 1000.0, []⟩ : Signal Float).analyze
        (.list [.text "kurtosis", .text "bogus", .text "peak", .text "kurtosis"]) (.integer 5) =
      .ok [("kurtosis", 1.0), ("peak", 2.0)] := by
  have hsquare : (Statistic.squareFault? [0.0, 2.0]).isNone = true := by decide +kernel
  have hvalues : Record.ofNames (Statistic.named? [0.0, 2.0])
      ["kurtosis", "bogus", "peak", "kurtosis"] = [("kurtosis", 1.0), ("peak", 2.0)] := by
    decide +kernel
  obtain ⟨hok, -⟩ := analyze_requested (s := ⟨[0.0, 2.0], 1000.0, []⟩) (List.cons_ne_nil _ _)
    ["kurtosis", "bogus", "peak", "kurtosis"] (.integer (n := 5) (by decide))
  rw [← hvalues]
  exact hok fun _ ↦ Option.isNone_iff_eq_none.mp hsquare

/-- Finite samples without a square of their variance make a sound signal that has no answer, though
its variance is not zero. -/
theorem exists_analyze_kurtosis_fault {samples : List Float}
    (hfinite : ∀ x ∈ samples, isFinite x = true) (hne : samples ≠ []) {fault : NumericFault}
    (h : Statistic.squareFault? samples = some fault) :
    ∃ s : Signal Float, s.Sound ∧ s.samples = samples ∧
      (Statistic.varianceOf s.samples == ((0 : ℕ) : Float)) = false ∧
      s.analyze (.list [.text "kurtosis"]) .null = .error (.numeric fault) := by
  have hrate : isFinite 1000.0 = true := by decide +kernel
  have hpos : (0.0 : Float) < 1000.0 := by decide +kernel
  refine ⟨⟨samples, 1000.0, []⟩, ⟨hfinite, hrate, hpos⟩, rfl,
    Statistic.varianceOf_of_squareFault? h, ?_⟩
  exact analyze_of_squareFault? hne ["kurtosis"] .absent (List.mem_singleton_self _) h

/-- The square of a variance can be too great for a double, and it can become zero. -/
theorem exists_analyze_squareFault :
    (∃ s : Signal Float, s.Sound ∧ s.samples = [0.0, 2e100] ∧
      (Statistic.varianceOf s.samples == ((0 : ℕ) : Float)) = false ∧
      s.analyze (.list [.text "kurtosis"]) .null = .error (.numeric .hugeSquare)) ∧
    ∃ s : Signal Float, s.Sound ∧ s.samples = [0.0, 2e-100] ∧
      (Statistic.varianceOf s.samples == ((0 : ℕ) : Float)) = false ∧
      s.analyze (.list [.text "kurtosis"]) .null = .error (.numeric .zeroDivision) := by
  have hhuge : Statistic.squareFault? [0.0, 2e100] = some .hugeSquare := by
    unfold Statistic.squareFault?
    dsimp only
    rw [if_neg (by decide +kernel), if_pos (by decide +kernel)]
  have hsmall : Statistic.squareFault? [0.0, 2e-100] = some .zeroDivision := by
    unfold Statistic.squareFault?
    dsimp only
    rw [if_neg (by decide +kernel), if_neg (by decide +kernel), if_pos (by decide +kernel)]
  exact ⟨exists_analyze_kurtosis_fault (by decide +kernel) (List.cons_ne_nil _ _) hhuge,
    exists_analyze_kurtosis_fault (by decide +kernel) (List.cons_ne_nil _ _) hsmall⟩

end Signal

end WaveNotebook
