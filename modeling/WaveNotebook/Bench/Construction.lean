import WaveNotebook.Bench.Container
import WaveNotebook.Bench.Equality
import WaveNotebook.Bench.Parameters

/-!
# Making things

What is done on a bench without a receiver: signals, sweeps, matrices, modes and
metrics are made from data, and any datum can be shown, compared, counted and
looked into.
-/

namespace WaveNotebook

/-- What is given back: a datum, with metadata if it is the result of a computation. -/
structure Answer where
  data : Datum
  metadata : Option Metadata

namespace Answer

def ofDatum (d : Datum) : Answer := ⟨d, none⟩

end Answer

namespace Bench

variable (b : Bench)

mutual

/-- A datum in which what holds numbers is seen as a list or an array: complex numbers by their
real parts, tuples, and modes if they are wanted too. -/
def numeric (modes : Bool) : Datum → Datum
  | .object label =>
    match b.thing? label with
    | some (.spectrum zs) => .array [zs.length] (zs.map (·.re))
    | some (.tuple items) => .list items
    | some (.modes signals) => if modes then .list signals else .object label
    | _ => .object label
  | .list items => .list (numericItems modes items)
  | d => d

def numericItems (modes : Bool) : List Datum → List Datum
  | [] => []
  | d :: ds => numeric modes d :: numericItems modes ds

end

/-- The sweep that a datum is, or that its options describe. -/
def sweepOf (d rate : Datum) : Except Fault Sweep :=
  match b.thingOf? d, d with
  | some (.sweep s), _ => .ok s
  | _, .record options => Sweep.ofOptions options rate
  | _, d => lookupFault (.member d.fullTypeName "items")

/-- The options that a sweep is made of; a sweep is none. -/
def sweepOptions (d rate : Datum) : Except Fault Sweep :=
  match d with
  | .record options => Sweep.ofOptions options rate
  | d => lookupFault (.member d.fullTypeName "items")

/-- Data that are all signals. -/
def signalsOf (items : List Datum) : Except Fault (List Datum) :=
  if items.all fun d => (b.signal? d).isSome then .ok items
  else .error (.signal .notSignals)

/-- A field with the number that its value is or spells. -/
def spelled (f : String × Datum) : Except NumericFault (String × Float) := do
  return (f.1, ← f.2.spelledNumber)

/-- What the notebook prints for a datum that is a value. -/
def print (d : Datum) (preview : Int) : Except Fault (List Char) :=
  match b.thingOf? d with
  | some (.metrics values) => do
    let numbers ← (values.mapM spelled).mapError Fault.numeric
    return (Value.metrics numbers).text b.session.store preview
  | _ => (b.argument d).text b.session.store preview

end Bench

namespace Work

/-- The arguments of an operation. -/
def bind (s : Signature) (args : List Datum) (named : Record) : Work Record :=
  lift ((s.bind args named).mapError fun fault => .numeric (.type (.signature fault)))

/-- The argument for a parameter, or what stands for a missing one. -/
def argument (args : Record) (name : String) (fallback : Datum) : Datum :=
  (args.lookup name).getD fallback

def required (args : Record) (name : String) : Datum :=
  argument args name .null

/-- The result of a computation, with the size of its numbers. -/
def computed (v : Value) : Work Answer := do
  let c := Computed.ofValue (← get).session.store v
  return ⟨← ofValue c.data, some c.metadata⟩

def computedSignal (s : Except Fault (Signal Float)) : Work Answer := do
  computed (.signal (← lift s))

def datum (d : Datum) : Work Answer :=
  return .ofDatum d

def made (t : Thing) : Work Answer := do
  datum (← make t)

def signal (args : Record) : Work Answer := do
  let samples := (← get).numeric true (required args "samples")
  let rate := argument args "sample_rate" (.number 1000.0)
  let attributes := argument args "attrs" (.record [])
  made (.signal (← lift (Signal.ofData samples rate attributes)))

def tone (wave : Waveform) (args : Record) : Work Answer :=
  computedSignal (Signal.tone wave (required args "frequency") (required args "duration")
    (argument args "sample_rate" (.number 1000.0)) (argument args "amplitude" (.number 1.0))
    (argument args "phase" (.number 0.0)))

def sweepSignal (args : Record) : Work Answer := do
  let b ← get
  computedSignal (do (← b.sweepOf (required args "options") .null).signal)

def sweep (args : Record) : Work Answer := do
  made (.sweep (← lift (Sweep.ofData (required args "start_freq") (required args "end_freq")
    (required args "duration") (argument args "method" (.text "linear"))
    (argument args "sample_rate" Sweep.defaultRate))))

def sweepOfOptions (args : Record) : Work Answer := do
  made (.sweep (← lift
    (Bench.sweepOptions (required args "options") (required args "default_sample_rate"))))

def matrix (args : Record) : Work Answer := do
  let data := (← get).numeric false (required args "data")
  datum (← makeMatrix (← lift (Grid.ofDatum data)))

def modes (args : Record) : Work Answer := do
  let b ← get
  let items ← lift (b.items (required args "signals"))
  made (.modes (← lift (b.signalsOf items)))

def metrics (args : Record) : Work Answer := do
  let b ← get
  made (.metrics (← lift (b.record (required args "values"))))

def kindOf (args : Record) : Work Answer := do
  let b ← get
  made (.kind (← lift (b.argument (required args "value")).kind))

/-- How many samples the printed form of a signal shows if nothing else is asked for. -/
def defaultPreview : Datum := .integer 5

def printed (args : Record) : Work Answer := do
  let b ← get
  let preview ← lift ((argument args "preview" defaultPreview).integerPart.mapError Fault.numeric)
  let text ← lift (b.print (required args "value") preview)
  datum (.text (String.ofList text))

def equality (args : Record) : Work Answer := do
  let b ← get
  datum (.bool (← lift (b.equal (required args "a") (required args "b"))))

def item (args : Record) : Work Answer := do
  let b ← get
  datum (← lift (b.item (required args "v") (required args "i")))

def length (args : Record) : Work Answer := do
  let b ← get
  datum (.integer (← lift (b.length (required args "v"))))

def toneSignature (name : String) : Signature :=
  ⟨"Signal." ++ name, true, ["frequency", "duration"], ["sample_rate", "amplitude", "phase"], []⟩

/-- The operations without a receiver, with their parameters. -/
def constructions : List (String × Signature × (Record → Work Answer)) :=
  [("signal", ⟨"Signal.__init__", true, ["samples"], ["sample_rate", "attrs"], []⟩, signal),
    ("generate_sine", toneSignature "generate_sine", tone .sine),
    ("generate_square", toneSignature "generate_square", tone .square),
    ("generate_chirp", ⟨"Signal.generate_chirp", true, ["options"], [], []⟩, sweepSignal),
    ("chirp_options",
      ⟨"ChirpOptions.__init__", true, ["start_freq", "end_freq", "duration"],
        ["method", "sample_rate"], []⟩, sweep),
    ("chirp_from_mapping",
      ⟨"ChirpOptions.from_mapping", true, ["options"], [], ["default_sample_rate"]⟩,
      sweepOfOptions),
    ("matrix", ⟨"Matrix.__init__", true, ["data"], [], []⟩, matrix),
    ("from_array", ⟨"Matrix.from_array", true, ["data"], [], []⟩, matrix),
    ("modes", ⟨"Modes.__init__", true, ["signals"], [], []⟩, modes),
    ("metrics", ⟨"Metrics.__init__", true, ["values"], [], []⟩, metrics),
    ("kind_of", ⟨"kind_of", false, ["value"], [], []⟩, kindOf),
    ("format_value", ⟨"format_value", false, ["value"], ["preview"], []⟩, printed),
    ("str", ⟨"str", false, ["object"], [], []⟩, fun args =>
      datum (.text (required args "object").plain)),
    ("repr", ⟨"repr", false, ["object"], [], []⟩, fun args =>
      datum (.text (required args "object").shown)),
    ("eq", ⟨"eq", false, ["a", "b"], [], []⟩, equality),
    ("item", ⟨"item", false, ["v", "i"], [], []⟩, item),
    ("len", ⟨"len", false, ["v"], [], []⟩, length)]

end Work

end WaveNotebook
