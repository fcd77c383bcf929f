import WaveNotebook.Matrix
import WaveNotebook.Method.Table

/-!
# The methods of a notebook

Each method checks the form of its arguments, takes the arguments of an operation
from an option bag by their keys, and wraps the result as a value.
-/

namespace WaveNotebook

namespace Method

open Run

/-- A number. -/
def numberArg (method : String) : Argument → Except Fault Float
  | .value (.number x) => .ok x
  | a => .error (.call (.notNumber method a.describe))

/-- An integer as the index of a row, a column or a mode. -/
def indexArg (method : String) (a : Argument) : Except Fault Int := do
  let x ← numberArg method a
  if Binary64.isInteger x then return Binary64.truncate x
  else .error (.call (.notIndex method x))

/-- The options that the first argument gives, all of which must be known. -/
def optionArgs (method : String) (known : List String) (args : List Argument) :
    Except Fault Record :=
  match args with
  | [] => .ok []
  | .data (.record options) :: _ =>
    match options.find? fun option => !known.contains option.1 with
    | some option => .error (.call (.option option.1 method known))
    | none => .ok options
  | a :: _ => .error (.call (.notOptions method a.describe))

/-- An option that must be an integer. -/
def integerOption (method key : String) (d : Datum) : Except Fault Datum :=
  match d with
  | .integer n => .ok (.integer n)
  | .number x =>
    if Binary64.isInteger x then .ok (.integer (Binary64.truncate x))
    else .error (.call (.optionInteger method key d.shown))
  | _ => .error (.call (.optionInteger method key d.shown))

/-- An option that must be an integer if it is given. -/
def integerOption? (method key : String) (options : Record) : Except Fault (Option Datum) :=
  match options.lookup key with
  | some d => some <$> integerOption method key d
  | none => .ok none

section

variable (s : Signal Float) (args : List Argument)

/-- The rows of the real and the imaginary parts of the Fourier transform. -/
def signalFourier : Except Fault (Grid Float) := do
  let zs ← s.spectrum
  Grid.ofRows [zs.map (·.re), zs.map (·.im)]

def signalSpectrum : Except Fault (Signal Float) := do
  let magnitudes ← s.magnitudeSpectrum
  Signal.ofSamples magnitudes s.rate [("spectrum_of", .record s.attributes)]

def signalWindow : Except Fault (Signal Float) :=
  match args with
  | .data (.text name) :: _ => s.window (.text name) none
  | _ => do
    let options ← optionArgs "applyWindow" ["type", "length"] args
    match options.lookup "type" with
    | none => .error (.call .windowType)
    | some name => s.window name (← integerOption? "applyWindow" "length" options)

def signalWavelet : Except Fault (Grid Float) := do
  let options ← optionArgs "waveletTransform" ["wavelet", "scales"] args
  let scales ← integerOption? "waveletTransform" "scales" options
  s.waveletTransform ((options.lookup "wavelet").getD (.text "morlet"))
    (scales.getD (.integer 8))

/-- The method and the number of modes that options give. -/
def decomposition : Except Fault (Datum × Datum) := do
  let options ← optionArgs "decompose" ["method", "numModes"] args
  let count ← integerOption? "decompose" "numModes" options
  return ((options.lookup "method").getD (.text "emd"), count.getD (.integer 1))

/-- The names of metrics that an option lists, or the single one that it is. -/
def metricsOption : Datum → Except Fault Datum
  | .text name => .ok (.list [.text name])
  | .list names =>
    if names.all fun d => match d with
      | .text _ => true
      | _ => false
    then .ok (.list names)
    else .error (.call .metricsForm)
  | _ => .error (.call .metricsForm)

/-- The window size that an option gives, where a missing value gives none. -/
def windowSizeOption : Option Datum → Except Fault Datum
  | none | some .null => .ok .null
  | some d => integerOption "analyze" "windowSize" d

def signalAnalyze : Except Fault (List (String × Float)) := do
  let options ← optionArgs "analyze" ["metrics", "windowSize"] args
  match options.lookup "metrics" with
  | none | some .null => .error (.call .metricsMissing)
  | some metrics =>
    let names ← metricsOption metrics
    s.analyze names (← windowSizeOption (options.lookup "windowSize"))

end

/-- A handler for signals, which meets no other receiver. -/
def onSignal (f : Signal Float → List Argument → Config → Run Value) : Handler :=
  fun receiver args config =>
    match receiver with
    | .signal s => f s args config
    | v => fail (.call (.notSignal v.kind.name))

def onMatrix (f : Handle → List Argument → Run Value) : Handler :=
  fun receiver args _ =>
    match receiver with
    | .matrix h => f h args
    | v => fail (.call (.notMatrix v.kind.name))

/-- The argument at a place; the number of arguments has been checked before. -/
def argAt (args : List Argument) (i : Nat) : Argument :=
  args[i]?.getD (.data .null)

def signalMethods : List (String × Handler × Int × Int) :=
  [("fft", onSignal fun s _ _ => do newMatrix (← lift (signalFourier s)), 0, 0),
    ("getSpectrum", onSignal fun s _ _ => .signal <$> lift (signalSpectrum s), 0, 0),
    ("applyWindow", onSignal fun s args _ => .signal <$> lift (signalWindow s args), 1, 1),
    ("waveletTransform",
      onSignal fun s args _ => do newMatrix (← lift (signalWavelet s args)), 0, 1),
    ("decompose", onSignal fun s args config => do
      let (method, count) ← lift (decomposition args)
      let (notices, modes) := s.decompose method count config.sifts.toInt
      note notices
      .modes <$> lift modes, 0, 1),
    ("analyze", onSignal fun s args _ => .metrics <$> lift (signalAnalyze s args), 1, 1),
    ("multiply", onSignal fun s args _ => do
      let x ← lift (numberArg "multiply" (argAt args 0))
      .signal <$> lift (s.multiply (.number x)), 1, 1),
    ("add", onSignal fun s args _ =>
      match argAt args 0 with
      | .value (.signal t) => .signal <$> lift (s.add t)
      | a => fail (.call (.notSignal a.describe)), 1, 1)]

def matrixMethods : List (String × Handler × Int × Int) :=
  [("add", onMatrix fun h args =>
      match argAt args 0 with
      | .value (.matrix k) => h.add (.value (.matrix k))
      | a => fail (.call (.notMatrix a.describe)), 1, 1),
    ("multiply", onMatrix fun h args =>
      match argAt args 0 with
      | .value (.number x) => h.multiply (.value (.number x))
      | .value (.matrix k) => h.multiply (.value (.matrix k))
      | a => fail (.call (.notFactor a.describe)), 1, 1),
    ("transpose", onMatrix fun h _ => h.transpose, 0, 0),
    ("get", onMatrix fun h args => do
      let i ← lift (indexArg "get" (argAt args 0))
      let j ← lift (indexArg "get" (argAt args 1))
      h.get (.integer i) (.integer j), 2, 2),
    ("set", onMatrix fun h args => do
      let i ← lift (indexArg "set" (argAt args 0))
      let j ← lift (indexArg "set" (argAt args 1))
      let x ← lift (numberArg "set" (argAt args 2))
      h.set (.integer i) (.integer j) (.number x), 3, 3)]

def modesMethods : List (String × Handler × Int × Int) :=
  [("get", fun receiver args _ =>
      match receiver with
      | .modes signals => do
        let i ← lift (indexArg "get" (argAt args 0))
        match if i < 0 then none else signals[i.toNat]? with
        | some s => return .signal s
        | none => fail (.call (.modeIndex i signals.length))
      | v => fail (.call (.notSignal v.kind.name)), 1, 1),
    ("count", fun receiver _ _ =>
      match receiver with
      | .modes signals => return .number (signals.length : Float)
      | v => fail (.call (.notSignal v.kind.name)), 0, 0)]

def metricsMethods : List (String × Handler × Int × Int) :=
  [("get", fun receiver args _ =>
      match receiver, argAt args 0 with
      | .metrics values, .data (.text name) => .number <$> lift (metric values name)
      | _, a => fail (.call (.metricName a.describe)), 1, 1)]

end Method

namespace MethodTable

def entriesOf (kind : ValueKind) (methods : List (String × Handler × Int × Int)) :
    List (ValueKind × Method) :=
  methods.map fun (name, handler, least, most) => (kind, ⟨name, handler, least, most⟩)

/-- The table that every notebook starts with. -/
def standard : MethodTable :=
  ⟨entriesOf .signal Method.signalMethods ++ entriesOf .matrix Method.matrixMethods ++
    entriesOf .modes Method.modesMethods ++ entriesOf .metrics Method.metricsMethods⟩

end MethodTable

end WaveNotebook
