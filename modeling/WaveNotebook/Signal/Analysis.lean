import WaveNotebook.Grid
import WaveNotebook.Kernel.Fourier
import WaveNotebook.Kernel.Sifting
import WaveNotebook.Kernel.Statistic
import WaveNotebook.Kernel.Wavelet
import WaveNotebook.Kernel.Window
import WaveNotebook.Signal.Tone

/-!
# Operations on signals

Windows, spectra, wavelet rows, modes and statistics. The cores work over any
number type; the forms with loosely typed arguments check these first and then
call a core on doubles.
-/

namespace WaveNotebook

/-- A warning that does not stop a computation: sifting has hit its cap. -/
structure Notice where
  sifts : Int
  deriving DecidableEq, Repr

def Notice.message (n : Notice) : String :=
  "EMD sifting did not reach threshold 0.05 after " ++ intText n.sifts ++
    " iterations; keeping last iterate"

def Window.ofDatum (d : Datum) : Except Fault Window := do
  match ← lookupName Window.ofName? d with
  | some w => return w
  | none => .error (.signal (.windowName d.plain Window.names))

/-- Why there are no so many coefficients of a window, if it is so. -/
def Window.sizeFault? (w : Window) (size : Nat) : Option NumericFault :=
  match w with
  | .rectangular =>
    if maxCount < size then some .dimensionLimit else allocationFault? size "float64"
  | _ => allocationFault? size "int64"

/-- The coefficients of a named window of a given length. -/
def Window.coefficientsOf {α : Type} [NatCast α] [Add α] [Sub α] [Mul α] [Div α] [OfScientific α]
    [Elementary α] (name : Datum) (size : Int) : Except Fault (List α) := do
  let w ← Window.ofDatum name
  if size < 0 then .error (.signal (.windowSize size))
  else
    match w.sizeFault? size.toNat with
    | some fault => .error (.numeric fault)
    | none => return w.coefficients size.toNat

def Wavelet.ofDatum (d : Datum) : Except Fault Wavelet := do
  match ← lookupName Wavelet.ofName? d with
  | some w => return w
  | none => .error (.signal (.waveletName d.plain Wavelet.names))

/-- The number of points of a kernel: ten times the scale rounded up, at least one. -/
def Wavelet.widthOf (scale : Float) : Except Fault Nat := do
  let points := scale * 10.0
  let _ ← (Datum.number points).integerPart.mapError Fault.numeric
  let width := max 1 (Binary64.ceil points).toNat
  match allocationFault? width "int64" with
  | some fault => .error (.numeric fault)
  | none => return width

/-- The scale that a datum is: a number, a truth value, or an array without dimensions. -/
def Wavelet.scaleOf : Datum → Except NumericFault Float
  | .number x => .ok x
  | .integer n => (Datum.integer n).toFloat?.map (·.getD 0.0)
  | .bool b => .ok (if b then 1.0 else 0.0)
  | .array [] [x] => .ok x
  | .array .. => .error (.type .dimensioned)
  | .text s => .error (.type (.notReal (Datum.text s).typeName))
  | .list items => .error (.type (.notReal (Datum.list items).typeName))
  | d => .error (.type (.operands "*" d.typeName "int"))

/-- The kernel of a named wavelet at a scale. -/
def Wavelet.kernelOf (name scale : Datum) : Except Fault (List Float) := do
  let w ← Wavelet.ofDatum name
  let scale ← (Wavelet.scaleOf scale).mapError Fault.numeric
  return w.kernel (← Wavelet.widthOf scale) scale

/-- The correlation of samples with a kernel, which must hold something unless the samples hold
nothing. -/
def Correlation.ofKernel (samples kernel : List Float) : Except Fault (List Float) :=
  if kernel.isEmpty && !samples.isEmpty then .error (.numeric (.shape .emptyKernel))
  else .ok (clamped samples kernel)

namespace Signal

section

variable {α : Type} [NatCast α] [Add α] [Sub α] [Mul α] [Div α] [OfScientific α] [Elementary α]

/-- The samples times the coefficients of a window of their number. -/
def applyWindow [FiniteTest α] (s : Signal α) (w : Window) : Except Fault (Signal α) :=
  s.derive (List.zipWith (· * ·) s.samples (w.coefficients s.size))

/-- Whether a datum is the length of a signal, or missing. -/
def hasLength (s : Signal α) : Datum → Except NumericFault Bool
  | .null => .ok true
  | .integer n => .ok (n == s.size)
  | .number x => .ok (x == (s.size : Float))
  | .bool b => .ok ((if b then 1 else 0) == s.size)
  | .array _ cells => Datum.truthOfArray (cells.map (· == (s.size : Float)))
  | _ => .ok false

def window [FiniteTest α] (s : Signal α) (name : Datum) (length : Option Datum) :
    Except Fault (Signal α) := do
  let length := length.getD .null
  if ← (s.hasLength length).mapError Fault.numeric then
    s.applyWindow (← Window.ofDatum name)
  else .error (.signal (.windowLength length.plain s.size))

end

section

variable {α : Type} [NatCast α] [Add α] [Sub α] [Mul α] [Div α] [Neg α] [Elementary α]

/-- The correlation of samples with the wavelet at a level, over the root of its scale. -/
def waveletRow (w : Wavelet) (samples : List α) (level : Nat) : List α :=
  let scale : α := dyadicScale level
  (Correlation.clamped samples (w.kernel (10 * Nat.pow 2 level) scale)).map
    (· / Elementary.sqrt scale)

/-- The wavelet transform: a row for each level. -/
def waveletRows (w : Wavelet) (levels : Nat) (samples : List α) : List (List α) :=
  (List.range levels).map (waveletRow w samples)

end

def spectrum (s : Signal Float) : Except Fault (List (Cartesian Float)) :=
  Fourier.realSpectrum s.samples

def magnitudeSpectrum (s : Signal Float) : Except Fault (List Float) :=
  Fourier.magnitudes (s.samples.map Cartesian.ofReal)

/-- The scales of so many levels. -/
def dyadicScales (levels : Int) : Except Fault (List Float) :=
  match allocationFault? levels.toNat "int64" with
  | some fault => .error (.numeric fault)
  | none => .ok ((List.range levels.toNat).map dyadicScale)

/-- A positive integer. -/
def positiveInteger (d : Datum) (fault : SignalFault) : Except Fault Nat := do
  if !d.isNumber then .error (.signal fault)
  else
    match ← d.integer?.mapError Fault.numeric with
    | some n => if 1 ≤ n then return n.toNat else .error (.signal fault)
    | none => .error (.signal fault)

/-- Why there is no room for the kernel of some level, told of the first such level. A kernel of
level 64 is longer than any row, so that no level above decides. -/
def kernelFault? (levels : Nat) : Option NumericFault :=
  (List.range (min levels 64)).findSome? fun level =>
    allocationFault? (10 * Nat.pow 2 level) "int64"

def waveletTransform {α : Type} [NatCast α] [Add α] [Sub α] [Mul α] [Div α] [Neg α] [Elementary α]
    [FiniteTest α] (s : Signal α) (wavelet scales : Datum) : Except Fault (Grid α) := do
  let levels ← positiveInteger scales (.scales scales.shown)
  if s.samples.isEmpty then .error (.signal .waveletEmpty)
  else
    match allocationFault? levels "int64" with
    | some fault => .error (.numeric fault)
    | none =>
      let w ← Wavelet.ofDatum wavelet
      match kernelFault? levels with
      | some fault => .error (.numeric fault)
      | none => Grid.ofRows (waveletRows w levels s.samples)

/-- The decompositions there are. -/
def decompositions : List String := ["emd"]

/-- The modes of samples, and the notices that sifting has left. -/
def modesOf {α : Type} [NatCast α] [Add α] [Sub α] [Mul α] [Div α] [LT α] [DecidableLT α]
    [OfScientific α] [Elementary α] (samples : List α) (count cap : Int) :
    List Notice × Except Fault (List (List α)) :=
  if count < 1 then ([], .error (.signal (.modesTooFew count)))
  else if cap < 1 then ([], .error (.signal (.siftsTooFew cap)))
  else
    let found := Sifting.decompose cap.toNat count.toNat samples
    let notices := (found.modes.filter (·.capped)).map fun _ => ⟨cap⟩
    match found.failure with
    | none => (notices, .ok (found.modes.map (·.mode)))
    | some shortfall =>
      (notices, .error (.algorithm (.mode (found.modes.length + 1) shortfall)))

/-- The arguments of a decomposition, checked: the number of modes. -/
def modeCountOf (method count : Datum) : Except Fault Int := do
  let text ← method.comparedText.mapError Fault.numeric
  if !text.any decompositions.contains then
    .error (.signal (.decomposition method.plain decompositions))
  else if !count.isNumber then .error (.signal (.modeCount count.shown))
  else
    match ← count.integer?.mapError Fault.numeric with
    | some n => return n
    | none => .error (.signal (.modeCount count.shown))

def decompose (s : Signal Float) (method count : Datum) (cap : Int) :
    List Notice × Except Fault (List (Signal Float)) :=
  match modeCountOf method count with
  | .error fault => ([], .error fault)
  | .ok n =>
    let (notices, found) := modesOf s.samples n cap
    (notices, do (← found).mapM s.derive)

/-- The names in a datum that lists some: a text is a single name. -/
def metricNames : Datum → Except Fault (List Datum)
  | .text s => .ok [.text s]
  | d => d.items.mapError fun fault => .numeric (.type fault)

/-- Adds a statistic under its name. An unknown name is passed over, and so is a statistic that
this signal does not have. -/
def addStatistic (samples : List Float) (found : List (String × Float)) (name : Datum) :
    Except Fault (List (String × Float)) := do
  match ← lookupName (fun s => (Statistic.ofName? s).map (s, ·)) name with
  | none => return found
  | some (key, statistic) =>
    match statistic.measure samples with
    | .ok x => return Record.put found key x
    | .error (.algorithm _) => return found
    | .error fault => .error fault

/-- The named statistics in the order in which they are first asked for. The window size is
checked, but every statistic covers the whole signal. Only then a fault of the names shows. -/
def statistics (s : Signal Float) (names : Except Fault (List Datum)) (windowSize : Datum) :
    Except Fault (List (String × Float)) := do
  match windowSize with
  | .null => pure ()
  | d => let _ ← positiveInteger d (.analysisWindow d.shown)
  if s.samples.isEmpty then .error (.signal .analysisEmpty)
  else (← names).foldlM (addStatistic s.samples) []

def analyze (s : Signal Float) (metrics windowSize : Datum) :
    Except Fault (List (String × Float)) :=
  s.statistics (metricNames metrics) windowSize

end Signal

end WaveNotebook
