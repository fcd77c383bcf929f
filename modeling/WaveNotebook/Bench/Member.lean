import WaveNotebook.Bench.Construction

/-!
# Members of things

What a signal, a matrix, a sweep or a record can be asked for, and the operations
on a receiver. A member that the receiver does not have is a fault, whatever the
arguments are.
-/

namespace WaveNotebook

namespace Work

/-- What a member is: a datum at once, or an operation with parameters. -/
inductive Member
  | property (answer : Work Answer)
  | method (signature : Signature) (run : Record → Work Answer)

def row (xs : List Float) : Datum :=
  .array [xs.length] xs

def tuple (items : List Datum) : Work Answer :=
  made (.tuple items)

section

variable (s : Signal Float)

def added (args : Record) : Work Answer := do
  let b ← get
  computedSignal (s.addArgument (b.argument (required args "other")))

def windowed (args : Record) : Work Answer :=
  computedSignal (s.window (required args "window_type") (some (required args "length")))

def transformed (_ : Record) : Work Answer := do
  let c := Computed.ofSpectrum (← lift s.spectrum)
  return ⟨← make (.spectrum c.data), some c.metadata⟩

def magnitudes (_ : Record) : Work Answer := do
  let c := Computed.ofReals (← lift s.magnitudeSpectrum)
  return ⟨row c.data, some c.metadata⟩

def wavelets (args : Record) : Work Answer := do
  let g ← lift (s.waveletTransform (argument args "wavelet" (.text "morlet"))
    (argument args "scales" (.integer 8)))
  computed (← ofRun (Run.newMatrix g))

def decomposed (args : Record) : Work Answer := do
  let cap ← lift ((argument args "max_sifts" (.integer 100)).integerPart.mapError Fault.numeric)
  let (notices, modes) := s.decompose (argument args "method" (.text "emd"))
    (argument args "num_modes" (.integer 1)) cap
  ofRun (Run.note notices)
  let signals ← lift modes
  let c := Computed.ofValue (← get).session.store (.modes signals)
  return ⟨.list (← makeSignals signals), some c.metadata⟩

/-- The names of statistics that a datum lists; a text is a single one. -/
def namesOf (b : Bench) : Datum → Except Fault (List Datum)
  | .text name => .ok [.text name]
  | d => b.items d

def analyzed (args : Record) : Work Answer := do
  let b ← get
  let values ← lift
    (s.statistics (namesOf b (required args "metrics")) (required args "window_size"))
  let c := Computed.ofValue b.session.store (.metrics values)
  return ⟨.record (values.map fun v => (v.1, .number v.2)), some c.metadata⟩

def attributeValue (args : Record) : Work Answer := do
  let found ← lift (s.attributeOf (required args "key"))
  datum (found.getD (required args "default"))

def signalMembers : List (String × Member) :=
  let method (name : String) (needed optional named : List String)
      (run : Record → Work Answer) : String × Member :=
    (name, .method ⟨"Signal." ++ name, true, needed, optional, named⟩ run)
  [("n", .property (datum (.integer s.size))),
    ("duration", .property (datum (.number s.duration))),
    ("data", .property (datum (row s.samples))),
    ("time", .property (datum (row s.times))),
    ("frequencies", .property (datum (row s.frequencies))),
    ("sample_rate", .property (datum (.number s.rate))),
    ("attrs", .property (datum (.record s.attributes))),
    method "multiply" ["factor"] [] [] fun args =>
      computedSignal (s.multiply (required args "factor")),
    method "add" ["other"] [] [] (added s),
    method "apply_window" ["window_type"] ["length"] [] (windowed s),
    method "fft" [] [] [] (transformed s),
    method "get_spectrum" [] [] [] (magnitudes s),
    method "wavelet_transform" [] ["wavelet", "scales"] [] (wavelets s),
    method "decompose" [] ["method", "num_modes"] ["max_sifts"] (decomposed s),
    method "analyze" ["metrics"] ["window_size"] [] (analyzed s),
    method "get_metadata" ["key"] ["default"] [] (attributeValue s),
    method "to_numpy" [] [] ["copy"] fun _ => tuple [row s.times, row s.samples]]

end

section

variable (d : Datum) (h : Handle) (g : Grid Float)

/-- A result of an operation on a matrix. -/
def ofMatrix (run : Argument → Run Value) (args : Record) : Work Answer := do
  let b ← get
  computed (← ofRun (run (b.argument (required args "other"))))

def entry (args : Record) : Work Answer := do
  datum (← ofValue (← ofRun (h.get (required args "row") (required args "col"))))

/-- Replaces an entry, and yields the matrix itself. -/
def edited (args : Record) : Work Answer := do
  let _ ← ofRun (h.set (required args "row") (required args "col") (required args "value"))
  datum d

/-- The numbers of a matrix, as they are now or as they will be. -/
def numbers (args : Record) : Work Answer :=
  if (argument args "copy" (.bool true)).isTruthy then datum (Thing.gridDatum g)
  else made (.view h)

def matrixMembers : List (String × Member) :=
  let method (name : String) (needed named : List String)
      (run : Record → Work Answer) : String × Member :=
    (name, .method ⟨"Matrix." ++ name, true, needed, [], named⟩ run)
  [("shape", .property (tuple [.integer g.rows, .integer g.cols])),
    ("rows", .property (datum (.integer g.rows))),
    ("cols", .property (datum (.integer g.cols))),
    method "add" ["other"] [] (ofMatrix h.add),
    method "multiply" ["other"] [] (ofMatrix h.multiply),
    method "transpose" [] [] fun _ => do computed (← ofRun h.transpose),
    method "get" ["row", "col"] [] (entry h),
    method "set" ["row", "col", "value"] [] (edited d h),
    method "to_array" [] [] fun _ => datum g.nested,
    method "to_numpy" [] ["copy"] (numbers h g)]

end

def sweepMembers (s : Sweep) : List (String × Member) :=
  [("duration", .property (datum (.number s.duration))),
    ("sample_rate", .property (datum (.number s.rate)))]

/-- The value under a key of a record, or what stands for a missing one. -/
def valueOr (fields : Record) (args : Record) : Work Answer := do
  let found ← lift (lookupName (fields.lookup ·) (required args "key"))
  datum (found.getD (required args "default"))

def recordMembers (fields : Record) : List (String × Member) :=
  [("get", .method ⟨"get", false, ["key"], ["default"], []⟩ (valueOr fields))]

def arrayMembers (shape : List Nat) : List (String × Member) :=
  [("shape", .property (tuple (shape.map fun (n : Nat) => .integer n)))]

def membersOf (b : Bench) (d : Datum) : List (String × Member) :=
  match b.thingOf? d, d with
  | some (.signal s), _ => signalMembers s
  | some (.matrix h), _ => matrixMembers d h (b.session.store.grid h)
  | some (.sweep s), _ => sweepMembers s
  | some (.spectrum zs), _ => arrayMembers [zs.length]
  | some _, _ => []
  | none, .record fields => recordMembers fields
  | none, .array shape _ => arrayMembers shape
  | none, _ => []

/-- Asks a receiver for a member. -/
def member (d : Datum) (name : String) (args : List Datum) (named : Record) : Work Answer := do
  match (membersOf (← get) d).lookup name with
  | some (.property answer) => answer
  | some (.method signature run) => do run (← bind signature args named)
  | none => fail (.numeric (.lookup (.member d.fullTypeName name)))

/-- Does something by its name, with or without a receiver. -/
def action (name : String) (receiver : Option Datum) (args : List Datum) (named : Record) :
    Work Answer := do
  let b ← get
  let args := b.currentItems args
  let named := b.currentFields named
  match receiver with
  | some d => member (b.current d) name args named
  | none =>
    match constructions.lookup name with
    | some (signature, run) => do run (← bind signature args named)
    | none => datum .null

end Work

/-- What doing something on a bench gives back, and the bench after it. -/
def Bench.act (b : Bench) (name : String) (receiver : Option Datum) (args : List Datum)
    (named : Record) : Except Fault Answer × Bench :=
  (Work.action name receiver args named).run b.clearNotices

end WaveNotebook
