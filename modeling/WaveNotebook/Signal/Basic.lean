import WaveNotebook.Kernel.Scalar
import WaveNotebook.NumberArray

/-!
# Signals

A signal is a row of samples at a constant rate, with attributes that say where
it came from. Its samples are finite and its rate is a positive finite number;
every operation derives a new signal from one, with the same rate and attributes,
and refuses samples that are no longer finite.
-/

namespace WaveNotebook

/-- What a name given as a datum stands for, if anything; a datum that cannot be a key is a
fault. -/
def lookupName {β : Type} (find : String → Option β) (d : Datum) : Except Fault (Option β) :=
  match d.keyFault?, d with
  | some fault, _ => .error (.numeric (.type fault))
  | none, .text s => .ok (find s)
  | none, _ => .ok none

structure Signal (α : Type) where
  samples : List α
  rate : α
  attributes : Record

namespace Signal

section

variable {α : Type}

def size (s : Signal α) : Nat :=
  s.samples.length

/-- The same signal with other samples. -/
def derive [FiniteTest α] (s : Signal α) (samples : List α) : Except Fault (Signal α) :=
  if samples.all isFinite then .ok { s with samples := samples }
  else .error (.signal .nonFinite)

end

/-- A positive finite number as a rate. -/
def rateOf (d : Datum) : Except Fault Float := do
  match ← d.finite?.mapError Fault.numeric with
  | some x => if 0.0 < x then return x else .error (.signal (.rate d.shown))
  | none => .error (.signal (.rate d.shown))

/-- A record of attributes; a missing one is empty. -/
def attributesOf : Datum → Except Fault Record
  | .null => .ok []
  | .record fields => .ok fields
  | _ => .error (.signal .attributes)

/-- The signal that loosely typed data describe. -/
def ofData (samples rate attributes : Datum) : Except Fault (Signal Float) := do
  let a ← (NumberArray.ofDatum samples).mapError Fault.signalEntries
  if a.shape.length ≠ 1 then .error (.signal (.dimensions a.shape))
  else if !a.cells.all isFinite then .error (.signal .nonFinite)
  else
    let rate ← rateOf rate
    let attributes ← attributesOf attributes
    return ⟨a.cells, rate, attributes⟩

/-- The time that the samples cover. -/
def duration (s : Signal Float) : Float :=
  (s.size : Float) / s.rate

def times (s : Signal Float) : List Float :=
  (List.range s.size).map fun (i : Nat) => (i : Float) / s.rate

/-- The frequencies of the values of the Fourier transform. -/
def frequencies (s : Signal Float) : List Float :=
  (List.range s.size).map fun (i : Nat) => (i : Float) * s.rate / (s.size : Float)

/-- The attribute under a key. -/
def attributeOf (s : Signal Float) (key : Datum) : Except Fault (Option Datum) :=
  lookupName (s.attributes.lookup ·) key

def multiply (s : Signal Float) (factor : Datum) : Except Fault (Signal Float) := do
  match ← factor.finite?.mapError Fault.numeric with
  | some x => s.derive (s.samples.map (· * x))
  | none => .error (.signal (.factor factor.shown))

def add (s t : Signal Float) : Except Fault (Signal Float) :=
  if t.size ≠ s.size then .error (.signal (.lengths s.size t.size))
  else if t.rate != s.rate then .error (.signal (.rates s.rate t.rate))
  else s.derive (List.zipWith (· + ·) s.samples t.samples)

/-- The first samples; a negative number leaves out so many at the end. -/
def preview (s : Signal Float) (count : Int) : List Float :=
  if 0 ≤ count then s.samples.take count.toNat
  else s.samples.take (s.size - count.natAbs)

/-- The size and the first samples in one line. -/
def text (s : Signal Float) (count : Int) : List Char :=
  ("Signal[" ++ natText s.size ++ " samples] = [").toList ++
    [',', ' '].intercalate ((s.preview count).map valueText) ++ ['.', '.', '.', ']']

/-- The written form of a signal in messages. -/
def shown (s : Signal Float) : String :=
  "Signal(sample_rate=" ++ floatText s.rate ++ ")"

end Signal

end WaveNotebook
