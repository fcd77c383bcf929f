import WaveNotebook.Signal.Basic

/-!
# Tones and sweeps

A tone is a sine or a square wave. A sweep runs from one frequency to another,
either with a constant change per second or with a constant ratio. The number of
samples is the greatest integer not above duration times rate; more samples than
there is room for are an allocation fault.
-/

namespace WaveNotebook

/-- The greatest number of elements that an index can count. -/
def maxCount : Nat := Nat.pow 2 63 - 1

/-- The number of doubles from which on their bytes can no longer be counted. -/
def maxBytesCount : Nat := Nat.pow 2 60

/-- The number of elements from which on there is no room for them. -/
def roomLimit : Nat := Nat.pow 2 33

/-- Why a row of so many elements cannot be made, if it cannot. -/
def allocationFault? (count : Nat) (element : String) : Option NumericFault :=
  if maxCount < count then some .sizeLimit
  else if maxBytesCount ≤ count then some .sizeProduct
  else if roomLimit ≤ count then some (.noMemory (8 * count) [count] element)
  else none

/-- The places `0, 1, …` of so many samples. -/
def places (count : Nat) : Except Fault (List Float) :=
  match allocationFault? count "float64" with
  | none => .ok ((List.range count).map fun (i : Nat) => (i : Float))
  | some fault =>
    match fault.category with
    | .exhausted => .error (.samples count fault)
    | _ => .error (.numeric fault)

/-- A finite number that a sound depends on. -/
def finiteOf (name : String) (d : Datum) : Except Fault Float := do
  match ← d.finite?.mapError Fault.numeric with
  | some x => return x
  | none => .error (.signal (.parameter name d.shown))

/-- A finite number that is not negative. -/
def durationOf (d : Datum) : Except Fault Float := do
  match ← d.finite?.mapError Fault.numeric with
  | some x => if x < 0.0 then .error (.signal (.duration d.shown)) else return x
  | none => .error (.signal (.duration d.shown))

/-- How many samples a duration holds. -/
def sampleCount (duration rate : Float) : Except Fault Nat :=
  let product := duration * rate
  if Binary64.isFinite product then .ok (Binary64.floor product).toNat
  else .error (.numeric .infiniteInteger)

inductive Waveform
  | sine | square
  deriving DecidableEq, Repr

/-- One, zero or minus one. -/
def signOf (x : Float) : Float :=
  if 0.0 < x then 1.0 else if x < 0.0 then -1.0 else if x == 0.0 then 0.0 else x

/-- The wave at an angle. -/
def Waveform.value : Waveform → Float → Float
  | sine, angle => Elementary.sin angle
  | square, angle => signOf (Elementary.sin angle)

namespace Signal

/-- A signal of computed samples. -/
def ofSamples (samples : List Float) (rate : Float) (attributes : Record) :
    Except Fault (Signal Float) :=
  Signal.derive ⟨[], rate, attributes⟩ samples

def tone (wave : Waveform) (frequency duration rate amplitude phase : Datum) :
    Except Fault (Signal Float) := do
  let f ← finiteOf "frequency" frequency
  let a ← finiteOf "amplitude" amplitude
  let p ← finiteOf "phase" phase
  let d ← durationOf duration
  let r ← rateOf rate
  let steps ← places (← sampleCount d r)
  let omega := 2.0 * Elementary.pi * f
  ofSamples (steps.map fun i => a * wave.value (omega * i / r + p)) r
    [("frequency", frequency), ("duration", duration), ("amplitude", amplitude), ("phase", phase)]

end Signal

inductive SweepMethod
  | linear | exponential
  deriving DecidableEq, Repr

namespace SweepMethod

def all : List SweepMethod := [linear, exponential]

def name : SweepMethod → String
  | linear => "linear"
  | exponential => "exponential"

def ofDatum (d : Datum) : Except Fault SweepMethod := do
  let text ← d.comparedText.mapError Fault.numeric
  match text.bind fun s => all.find? (·.name == s) with
  | some m => return m
  | none => .error (.signal (.sweepMethod d.plain (all.map name)))

end SweepMethod

/-- The parameters of a sweep. -/
structure Sweep where
  start : Float
  stop : Float
  duration : Float
  method : SweepMethod
  rate : Float

namespace Sweep

/-- The rate of a sweep that names none. -/
def defaultRate : Datum := .number 44100.0

def parameter (name : String) (d : Datum) : Except Fault Float := do
  match ← d.finite?.mapError Fault.numeric with
  | some x => return x
  | none => .error (.signal (.sweepParameter name d.shown))

def ofData (start stop duration method rate : Datum) : Except Fault Sweep := do
  let f₀ ← parameter "start_freq" start
  let f₁ ← parameter "end_freq" stop
  let d ← parameter "duration" duration
  let r ← parameter "sample_rate" rate
  let m ← SweepMethod.ofDatum method
  return ⟨f₀, f₁, d, m, r⟩

/-- The spellings of an option, and the field each stands for. -/
def spellings : List (String × String) :=
  [("startFreq", "start_freq"), ("endFreq", "end_freq"), ("sampleRate", "sample_rate")]

def fieldNames : List String :=
  ["start_freq", "end_freq", "duration", "method", "sample_rate"]

def required : List String :=
  ["start_freq", "end_freq", "duration"]

/-- The fields that options give; the last one that names a field counts. -/
def fieldsOf (options : Record) : Except Fault Record :=
  options.foldlM (fun fields option =>
    let name := (spellings.lookup option.1).getD option.1
    if fieldNames.contains name then .ok (Record.put fields name option.2)
    else .error (.signal (.sweepOption option.1))) []

/-- The sweep of an option bag, given the rate for one that names none. -/
def ofOptions (options : Record) (rate : Datum) : Except Fault Sweep := do
  let fields ← fieldsOf options
  let missing := required.filter fun name => (fields.lookup name).isNone
  if !missing.isEmpty then .error (.signal (.sweepMissing missing))
  else
    let field (name : String) (default : Datum) := (fields.lookup name).getD default
    let rate := match rate with
      | .null => defaultRate
      | d => d
    ofData (field "start_freq" .null) (field "end_freq" .null) (field "duration" .null)
      (field "method" (.text "linear")) (field "sample_rate" rate)

/-- The written form of a sweep in messages. -/
def shown (s : Sweep) : String :=
  "ChirpOptions(start_freq=" ++ floatText s.start ++ ", end_freq=" ++ floatText s.stop ++
    ", duration=" ++ floatText s.duration ++ ", method=" ++ Datum.quotedText s.method.name ++
    ", sample_rate=" ++ floatText s.rate ++ ")"

/-- The exponential less one, without loss for small arguments. -/
def expLessOne (x : Float) : Float :=
  if x.abs < 1.0 then 2.0 * Float.sinh (x / 2.0) * Float.exp (x / 2.0) else Float.exp x - 1.0

/-- The samples of a sweep at given times. -/
def samples (s : Sweep) (times : List Float) : Except Fault (List Float) :=
  let twoPi := 2.0 * Elementary.pi
  match s.method with
  | .linear =>
    let slope := if 0.0 < s.duration then (s.stop - s.start) / s.duration else 0.0
    .ok (times.map fun t => Float.sin (twoPi * (s.start * t + slope * t * t / 2.0)))
  | .exponential =>
    if s.start == 0.0 || s.stop == 0.0 || (s.start < 0.0) != (s.stop < 0.0) then
      .error (.algorithm (.sweepEnds s.start s.stop))
    else if s.duration ≤ 0.0 then .error (.algorithm .sweepDuration)
    else if s.stop / s.start == 0.0 then .error (.numeric .logarithm)
    else
      let k := Float.log (s.stop / s.start) / s.duration
      if k == 0.0 then .ok (times.map fun t => Float.sin (twoPi * s.start * t))
      else .ok (times.map fun t => Float.sin (twoPi * s.start * expLessOne (k * t) / k))

/-- The signal of a sweep. -/
def signal (s : Sweep) : Except Fault (Signal Float) := do
  let duration ← durationOf (.number s.duration)
  let rate ← Signal.rateOf (.number s.rate)
  let steps ← places (← sampleCount duration rate)
  let samples ← s.samples (steps.map (· / rate))
  if !samples.all isFinite then .error (.algorithm .sweepNonFinite)
  else
    Signal.ofSamples samples rate
      [("start_freq", .number s.start), ("end_freq", .number s.stop),
        ("duration", .number s.duration), ("method", .text s.method.name)]

end Sweep

end WaveNotebook
