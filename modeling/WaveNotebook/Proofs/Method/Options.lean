import WaveNotebook.Proofs.Outcome
import WaveNotebook.Proofs.Record
import WaveNotebook.Workspace.Evaluation

/-!
# The order of options

An operation with options looks them up by their keys, and refuses a key that it does not know.
So options in another order have the same result or the same fault; only of several unknown keys
the first one is named. The options of a sweep are renamed before they are looked up, and of two
keys for one field the last one counts. There the order matters if it makes another value the
last one.
-/

namespace WaveNotebook

open Record

/-- What an operation makes of options, with the keys that it knows and its fault for another
one. -/
structure OptionReader (R : Type) where
  fail : Fault → R
  known : String → Bool
  refusal : String → Fault
  run : Record → R

namespace OptionReader

variable {R : Type} (r : OptionReader R)

def Known (o : Record) : Prop :=
  ∀ key ∈ keys o, r.known key = true

/-- The first key that is not known. -/
def firstUnknown? (o : Record) : Option String :=
  (keys o).find? fun key ↦ !r.known key

/-- Input is refused because of the first key that is not known. -/
def Refuses (o : Record) : Prop :=
  ∃ key, r.firstUnknown? o = some key ∧ r.run o = r.fail (r.refusal key) ∧
    (r.refusal key).category = .invalidInput

/-- Options in two orders come to the same if all keys are known, and are refused else. -/
def Unordered (o p : Record) : Prop :=
  (r.Known o → r.run o = r.run p) ∧ (¬r.Known o → r.Refuses o ∧ r.Refuses p)

variable {r} {o p : Record}

theorem known_iff : r.Known o ↔ r.firstUnknown? o = none := by
  unfold Known firstUnknown?
  simp [List.find?_eq_none]

theorem unordered_of_sameFields (h : SameFields o p) (hknown : r.Known o → r.run o = r.run p)
    (hunknown : ∀ {o key}, r.firstUnknown? o = some key →
      r.run o = r.fail (r.refusal key) ∧ (r.refusal key).category = .invalidInput) :
    r.Unordered o p := by
  have hrefuses : ∀ {o}, ¬r.Known o → r.Refuses o := by
    intro o ho
    rw [known_iff, ← ne_eq, Option.ne_none_iff_exists'] at ho
    obtain ⟨key, hkey⟩ := ho
    exact ⟨key, hkey, hunknown hkey⟩
  exact ⟨hknown, fun ho ↦ ⟨hrefuses ho, hrefuses (mt h.forall_keys_iff.mpr ho)⟩⟩

end OptionReader

/-! ## Sweeps -/

namespace Sweep

/-- The field that a key stands for. -/
def fieldName (key : String) : String :=
  (spellings.lookup key).getD key

def knows (key : String) : Bool :=
  fieldNames.contains (fieldName key)

/-- The options under the names of their fields. -/
def renamed (o : Record) : Record :=
  o.map fun option ↦ (fieldName option.1, option.2)

/-- Spellings of one field have one value. -/
def Consistent (o : Record) : Prop :=
  SingleValued (renamed o)

/-- The value of a field under the last key that stands for it. -/
def lastValue? (o : Record) (name : String) : Option Datum :=
  (renamed o).reverse.lookup name

/-- In both orders the last spelling of a field has the same value. -/
def SameLast (o p : Record) : Prop :=
  ∀ name, lastValue? o name = lastValue? p name

theorem sameLast_of_consistent {o p : Record} (h : SameFields o p) (hconsistent : Consistent o) :
    SameLast o p := by
  have hperm : (renamed o).Perm (renamed p) := h.perm.map _
  have hreverse := (List.reverse_perm _).trans (hperm.trans (List.reverse_perm _).symm)
  refine lookup_eq_of_perm hreverse fun f hf g hg ↦ ?_
  exact hconsistent f (List.mem_reverse.mp hf) g (List.mem_reverse.mp hg)

def putField (fields : Record) (option : String × Datum) : Except Fault Record :=
  if knows option.1 then .ok (put fields (fieldName option.1) option.2)
  else .error (.signal (.sweepOption option.1))

theorem fieldsOf_eq (o : Record) : fieldsOf o = o.foldlM putField [] :=
  rfl

theorem foldlM_putField_of_known {o : Record} (h : ∀ key ∈ keys o, knows key = true)
    (fields : Record) : o.foldlM putField fields =
      .ok ((renamed o).foldl (fun fields option ↦ put fields option.1 option.2) fields) := by
  induction o generalizing fields with
  | nil => rfl
  | cons option o ih =>
    obtain ⟨hoption, ho⟩ := List.forall_mem_cons.mp h
    rw [List.foldlM_cons, putField, if_pos hoption]
    exact ih ho _

theorem foldlM_putField_of_unknown {o : Record} {key : String}
    (h : (keys o).find? (fun key ↦ !knows key) = some key) (fields : Record) :
    o.foldlM putField fields = .error (.signal (.sweepOption key)) := by
  induction o generalizing fields with
  | nil => cases h
  | cons option o ih =>
    rw [keys, List.map_cons] at h
    rw [List.foldlM_cons, putField]
    by_cases hoption : knows option.1 = true
    · rw [List.find?_cons_of_neg (by simp [hoption])] at h
      rw [if_pos hoption]
      exact ih h _
    · rw [List.find?_cons_of_pos (by simp [hoption])] at h
      rw [if_neg hoption, Option.some.inj h]
      rfl

/-- The fields of known options have the last values. -/
theorem exists_fieldsOf {o : Record} (hknown : ∀ key ∈ keys o, knows key = true) :
    ∃ fields, fieldsOf o = .ok fields ∧ ∀ name, fields.lookup name = lastValue? o name := by
  refine ⟨_, foldlM_putField_of_known hknown [], fun name ↦ ?_⟩
  rw [lookup_foldl_put, List.lookup_nil, Option.or_none]
  rfl

variable {o p : Record} (rate : Datum)

theorem ofOptions_eq_of_lookup {fields fields' : Record} (ho : fieldsOf o = .ok fields)
    (hp : fieldsOf p = .ok fields') (h : ∀ name, fields.lookup name = fields'.lookup name) :
    ofOptions o rate = ofOptions p rate := by
  unfold ofOptions
  rw [ho, hp]
  dsimp only [bind, Except.bind]
  simp only [h]

theorem ofOptions_eq (h : SameFields o p) (hknown : ∀ key ∈ keys o, knows key = true)
    (hlast : SameLast o p) : ofOptions o rate = ofOptions p rate := by
  obtain ⟨fields, ho, hlookup⟩ := exists_fieldsOf hknown
  obtain ⟨fields', hp, hlookup'⟩ := exists_fieldsOf (h.forall_keys_iff.mp hknown)
  refine ofOptions_eq_of_lookup rate ho hp fun name ↦ ?_
  rw [hlookup, hlookup', hlast]

theorem ofOptions_of_unknown {key : String}
    (h : (keys o).find? (fun key ↦ !knows key) = some key) :
    ofOptions o rate = .error (.signal (.sweepOption key)) := by
  unfold ofOptions
  rw [fieldsOf_eq, foldlM_putField_of_unknown h]
  rfl

end Sweep

namespace OptionReader

/-- The reader of the options of a sweep, given the rate for one that names none. -/
def sweep (rate : Datum) : OptionReader (Except Fault Sweep) where
  fail := .error
  known := Sweep.knows
  refusal key := .signal (.sweepOption key)
  run o := Sweep.ofOptions o rate

/-- A builtin that makes the signal of a sweep. -/
def builtin (b : Builtin) (config : Config) : OptionReader (Run Value) where
  fail := Run.fail
  known := Sweep.knows
  refusal key := .signal (.sweepOption key)
  run o := b.apply config [.data (.record o)]

variable {o p : Record}

theorem unordered_sweep (h : SameFields o p)
    (hlast : (∀ key ∈ keys o, Sweep.knows key = true) → Sweep.SameLast o p) (rate : Datum) :
    (sweep rate).Unordered o p :=
  unordered_of_sameFields h (fun hknown ↦ Sweep.ofOptions_eq rate h hknown (hlast hknown))
    fun hkey ↦ ⟨Sweep.ofOptions_of_unknown rate hkey, rfl⟩

theorem run_builtin {b : Builtin} (hb : b.action = .sweep) (config : Config) (o : Record) :
    (builtin b config).run o = .signal <$> Run.lift (do
      (← Sweep.ofOptions o (.number config.rate)).signal) := by
  unfold builtin Builtin.apply
  rw [hb]
  rfl

theorem unordered_builtin (h : SameFields o p)
    (hlast : (∀ key ∈ keys o, Sweep.knows key = true) → Sweep.SameLast o p) {b : Builtin}
    (hb : b.action = .sweep) (config : Config) : (builtin b config).Unordered o p := by
  refine unordered_of_sameFields h (fun hknown ↦ ?_) fun hkey ↦ ⟨?_, rfl⟩
  · rw [run_builtin hb, run_builtin hb, Sweep.ofOptions_eq _ h hknown (hlast hknown)]
  · rw [run_builtin hb, Sweep.ofOptions_of_unknown _ hkey]
    rfl

end OptionReader

/-! ## Methods -/

/-- The methods that take options, with the keys that they know. -/
def optionMethods : List (String × List String) :=
  [("applyWindow", ["type", "length"]), ("waveletTransform", ["wavelet", "scales"]),
    ("decompose", ["method", "numModes"]), ("analyze", ["metrics", "windowSize"])]

namespace OptionReader

/-- A method of a signal that is called with nothing but options. -/
def method (m : Method) (known : List String) (s : Signal Float) (config : Config) :
    OptionReader (Run Value) where
  fail := Run.fail
  known := known.contains
  refusal key := .call (.option key m.name known)
  run o := m.call (.signal s) [.data (.record o)] config

end OptionReader

namespace Method

variable {o p : Record} {name : String} {known : List String}

theorem optionArgs_of_known (h : ∀ key ∈ keys o, known.contains key = true) :
    optionArgs name known [.data (.record o)] = .ok o := by
  have hfind : o.find? (fun option ↦ !known.contains option.1) = none := by
    rw [List.find?_eq_none]
    intro option hoption
    rw [h option.1 (List.mem_map_of_mem hoption)]
    exact Bool.false_ne_true
  unfold optionArgs
  dsimp only
  rw [hfind]

theorem optionArgs_of_unknown {key : String}
    (h : (keys o).find? (fun key ↦ !known.contains key) = some key) :
    optionArgs name known [.data (.record o)] = .error (.call (.option key name known)) := by
  rw [keys, List.find?_map] at h
  obtain ⟨option, hoption, rfl⟩ := Option.map_eq_some_iff.mp h
  unfold optionArgs
  dsimp only
  have hfind : o.find? (fun option ↦ !known.contains option.1) = some option := hoption
  rw [hfind]

theorem integerOption?_eq (h : ∀ key, o.lookup key = p.lookup key) (name key : String) :
    integerOption? name key o = integerOption? name key p := by
  unfold integerOption?
  rw [h]

/-- A computation that checks the keys of options and then only looks them up. -/
def ReadsOptions {α : Type} (name : String) (known : List String)
    (f : List Argument → Except Fault α) : Prop :=
  ∃ body : Record → Except Fault α,
    (∀ o, f [.data (.record o)] = optionArgs name known [.data (.record o)] >>= body) ∧
      ∀ o p, (∀ key, o.lookup key = p.lookup key) → body o = body p

namespace ReadsOptions

variable {α : Type} {f : List Argument → Except Fault α} (hf : ReadsOptions name known f)

include hf

theorem eq_of_known (h : SameFields o p) (hknown : ∀ key ∈ keys o, known.contains key = true) :
    f [.data (.record o)] = f [.data (.record p)] := by
  obtain ⟨body, hbind, hbody⟩ := hf
  have hknown' := h.forall_keys_iff.mp hknown
  rw [hbind, hbind, optionArgs_of_known hknown, optionArgs_of_known hknown']
  exact hbody o p h.lookup_eq

theorem eq_of_unknown {key : String}
    (h : (keys o).find? (fun key ↦ !known.contains key) = some key) :
    f [.data (.record o)] = .error (.call (.option key name known)) := by
  obtain ⟨body, hbind, -⟩ := hf
  rw [hbind, optionArgs_of_unknown h]
  rfl

/-- A method that hands what such a computation yields on, and its faults as they are. -/
theorem unordered {m : Method} (hname : m.name = name) {s : Signal Float} {config : Config}
    {g : Except Fault α → Run Value} (hg : ∀ fault, g (.error fault) = Run.fail fault)
    (hrun : ∀ o, m.call (.signal s) [.data (.record o)] config = g (f [.data (.record o)]))
    (h : SameFields o p) : (OptionReader.method m known s config).Unordered o p := by
  refine OptionReader.unordered_of_sameFields h (fun hknown ↦ ?_) fun hkey ↦ ⟨?_, rfl⟩
  · exact (hrun o).trans ((congrArg g (hf.eq_of_known h hknown)).trans (hrun p).symm)
  · refine (hrun _).trans ((congrArg g (hf.eq_of_unknown hkey)).trans ?_)
    rw [hg, ← hname]
    rfl

end ReadsOptions

variable (s : Signal Float)

theorem readsOptions_signalWindow :
    ReadsOptions "applyWindow" ["type", "length"] (signalWindow s) := by
  refine ⟨_, fun o ↦ rfl, fun o p h ↦ ?_⟩
  simp only [h, integerOption?_eq h]

theorem readsOptions_signalWavelet :
    ReadsOptions "waveletTransform" ["wavelet", "scales"] (signalWavelet s) := by
  refine ⟨_, fun o ↦ rfl, fun o p h ↦ ?_⟩
  simp only [h, integerOption?_eq h]

theorem readsOptions_decomposition :
    ReadsOptions "decompose" ["method", "numModes"] decomposition := by
  refine ⟨_, fun o ↦ rfl, fun o p h ↦ ?_⟩
  simp only [h, integerOption?_eq h]

theorem readsOptions_signalAnalyze :
    ReadsOptions "analyze" ["metrics", "windowSize"] (signalAnalyze s) := by
  refine ⟨_, fun o ↦ rfl, fun o p h ↦ ?_⟩
  simp only [h]

end Method

section

variable {o p : Record} (h : SameFields o p)

include h

/-- In the standard table each of these methods has an entry for signals. -/
theorem unordered_optionMethods : ∀ row ∈ optionMethods, ∃ m,
    MethodTable.standard.find? .signal row.1 = some m ∧
      ∀ s config, (OptionReader.method m row.2 s config).Unordered o p := by
  unfold optionMethods
  simp only [List.forall_mem_cons, List.not_mem_nil, false_implies, implies_true, and_true]
  refine ⟨⟨_, rfl, ?applyWindow⟩, ⟨_, rfl, ?waveletTransform⟩, ⟨_, rfl, ?decompose⟩,
    ⟨_, rfl, ?analyze⟩⟩
  case applyWindow =>
    intro s config
    exact (Method.readsOptions_signalWindow s).unordered rfl (g := fun r ↦ .signal <$> Run.lift r)
      (fun _ ↦ rfl) (fun _ ↦ rfl) h
  case waveletTransform =>
    intro s config
    exact (Method.readsOptions_signalWavelet s).unordered rfl
      (g := fun r ↦ do Run.newMatrix (← Run.lift r)) (fun _ ↦ rfl) (fun _ ↦ rfl) h
  case decompose =>
    intro s config
    refine Method.readsOptions_decomposition.unordered rfl (g := fun r ↦ do
      let request ← Run.lift r
      let decomposition := s.decompose request.1 request.2 config.sifts.toInt
      Run.note decomposition.1
      .modes <$> Run.lift decomposition.2) (fun _ ↦ rfl) (fun _ ↦ rfl) h
  case analyze =>
    intro s config
    exact (Method.readsOptions_signalAnalyze s).unordered rfl (g := fun r ↦ .metrics <$> Run.lift r)
      (fun _ ↦ rfl) (fun _ ↦ rfl) h

/-- The order of options does not matter. If all keys are known, a method, a sweep and a builtin
for sweeps end in the same way in both orders, with the same result or the same fault, provided
that for a sweep the last spelling of each field has the same value in both; else both orders are
refused as input. Spellings with one value can stand in any order. -/
theorem options_unordered :
    (∀ row ∈ optionMethods, ∃ m, MethodTable.standard.find? .signal row.1 = some m ∧
      ∀ s config, (OptionReader.method m row.2 s config).Unordered o p) ∧
      (((∀ key ∈ keys o, Sweep.knows key = true) → Sweep.SameLast o p) →
        (∀ rate, (OptionReader.sweep rate).Unordered o p) ∧
          ∀ b ∈ Builtin.standard, b.action = .sweep →
            ∀ config, (OptionReader.builtin b config).Unordered o p) ∧
      (Sweep.Consistent o → Sweep.SameLast o p) :=
  ⟨unordered_optionMethods h, fun hlast ↦ ⟨OptionReader.unordered_sweep h hlast,
    fun _ _ hb ↦ OptionReader.unordered_builtin h hlast hb⟩, Sweep.sameLast_of_consistent h⟩

end

/-- The two orders of a list of two metrics and a window size, and of a sweep without a rate. -/
theorem options_unordered_swapped :
    (∃ m, MethodTable.standard.find? .signal "analyze" = some m ∧
      ∀ s config,
        m.call (.signal s) [.data (.record [("metrics", .text "rms"), ("windowSize", .number 2.0)])]
          config =
        m.call (.signal s) [.data (.record [("windowSize", .number 2.0), ("metrics", .text "rms")])]
          config) ∧
      ∀ rate, Sweep.ofOptions
          [("startFreq", .number 1.0), ("end_freq", .number 2.0), ("duration", .number 1.0)] rate =
        Sweep.ofOptions
          [("end_freq", .number 2.0), ("startFreq", .number 1.0), ("duration", .number 1.0)]
          rate := by
  have hmethod : SameFields [("metrics", .text "rms"), ("windowSize", .number 2.0)]
      [("windowSize", Datum.number 2.0), ("metrics", .text "rms")] := ⟨.swap .., by decide⟩
  have hsweep : SameFields
      [("startFreq", .number 1.0), ("end_freq", .number 2.0), ("duration", .number 1.0)]
      [("end_freq", Datum.number 2.0), ("startFreq", .number 1.0), ("duration", .number 1.0)] :=
    ⟨.swap .., by decide⟩
  have hmetrics : ∀ key ∈ ["metrics", "windowSize"],
      ["metrics", "windowSize"].contains key = true := by decide
  have hfields : ∀ key ∈ ["startFreq", "end_freq", "duration"], Sweep.knows key = true := by decide
  obtain ⟨m, hm, hcalls⟩ := (options_unordered hmethod).1
    ("analyze", ["metrics", "windowSize"]) (by decide)
  have hlast := (options_unordered hsweep).2.2 (singleValued_of_nodup (by decide))
  have hsweeps := (options_unordered hsweep).2.1 fun _ ↦ hlast
  exact ⟨⟨m, hm, fun s config ↦ (hcalls s config).1 hmetrics⟩,
    fun rate ↦ (hsweeps.1 rate).1 hfields⟩

/-! ## Where the order matters -/

/-- Both results are equal, or both inputs are refused. -/
abbrev AgreeOrRefuse {α : Type} : Except Fault α → Except Fault α → Prop :=
  EndsAlike (fun e e' ↦ e.category = .invalidInput ∧ e'.category = .invalidInput) id

/-- The category of the fault of a computation that has one. -/
def categoryOf? {α : Type} : Except Fault α → Option Category
  | .ok _ => none
  | .error fault => some fault.category

theorem not_agreeOrRefuse_of_ok {α β : Type} {r r' : Except Fault α} {f : α → β} {b c : β}
    (h : r.toOption.map f = some b) (h' : r'.toOption.map f = some c) (hne : b ≠ c) :
    ¬AgreeOrRefuse r r' := by
  intro hagree
  cases hagree with
  | ok a => exact hne (Option.some.inj (h.symm.trans h'))
  | error _ => cases h

theorem not_agreeOrRefuse_of_error {α : Type} {r r' : Except Fault α} {category : Category}
    (h : categoryOf? r = some category) (hne : category ≠ .invalidInput) :
    ¬AgreeOrRefuse r r' := by
  intro hagree
  cases hagree with
  | ok a => cases h
  | error hrefused => exact hne ((Option.some.inj h).symm.trans hrefused.1)

/-- Two spellings of a field with different values, of which the last one counts; and a signal
that cannot be decomposed, for which no order is refused as input. -/
theorem options_ordered :
    (let o : Record := [("startFreq", .number 1.0), ("start_freq", .number 2.0),
        ("endFreq", .number 3.0), ("duration", .number 1.0)]
      let p : Record := [("start_freq", .number 2.0), ("startFreq", .number 1.0),
        ("endFreq", .number 3.0), ("duration", .number 1.0)]
      SameFields o p ∧ ¬AgreeOrRefuse (Sweep.ofOptions o .null) (Sweep.ofOptions p .null)) ∧
      (let o : Record := [("method", .text "emd"), ("numModes", .number 1.0)]
        let p : Record := [("numModes", .number 1.0), ("method", .text "emd")]
        let result (m : Method) (options : Record) : Except Fault Value :=
          ((m.call (.signal ⟨[0.0, 1.0], 1000.0, []⟩) [.data (.record options)]
            Config.default).run.run Session.empty).1
        SameFields o p ∧ ∃ m, MethodTable.standard.find? .signal "decompose" = some m ∧
          ¬AgreeOrRefuse (result m o) (result m p)) := by
  refine ⟨⟨⟨.swap .., by decide⟩, ?_⟩, ⟨.swap .., by decide⟩, _, rfl, ?_⟩
  · refine not_agreeOrRefuse_of_ok (f := Sweep.start) (b := 2.0) (c := 1.0) ?_ ?_ ?_
    · decide +kernel
    · decide +kernel
    · decide +kernel
  · have hcategory : Category.algorithmFailure ≠ .invalidInput := by decide
    exact not_agreeOrRefuse_of_error (by decide +kernel) hcategory

end WaveNotebook
