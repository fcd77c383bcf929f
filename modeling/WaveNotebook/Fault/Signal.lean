import WaveNotebook.Fault.Category

/-!
# Faults of signals and matrices

Malformed input to an operation is told apart from an algorithm without a
well-defined result.
-/

namespace WaveNotebook

/-- Malformed input to an operation on signals. Offending values come in written form. -/
inductive SignalFault
  | dimensions (shape : List Nat)
  | nonFinite
  | rate (shown : String)
  | attributes
  | parameter (name shown : String)
  | duration (shown : String)
  | factor (shown : String)
  | addend
  | lengths (expected got : Nat)
  | rates (expected got : Float)
  | windowLength (shown : String) (size : Nat)
  | windowName (shown : String) (known : List String)
  | windowSize (size : Int)
  | waveletName (shown : String) (known : List String)
  | scales (shown : String)
  | waveletEmpty
  | transformDimensions (shape : List Nat)
  | transformLength (size : Nat)
  | decomposition (shown : String) (known : List String)
  | modeCount (shown : String)
  | modesTooFew (count : Int)
  | siftsTooFew (count : Int)
  | analysisWindow (shown : String)
  | analysisEmpty
  | statisticEmpty
  | statisticDimensions (shape : List Nat)
  | sweepParameter (name shown : String)
  | sweepMethod (shown : String) (known : List String)
  | sweepOption (key : String)
  | sweepMissing (names : List String)
  | notSignals

namespace SignalFault

def oneOf (names : List String) : String :=
  ", expected one of: " ++ ", ".intercalate names

def message : SignalFault → String
  | dimensions shape => "Invalid signal data: expected 1D array, got shape " ++ shapeText shape
  | nonFinite => "Invalid signal data: contains non-finite values (NaN/Inf)."
  | rate shown => "sample_rate must be a finite number > 0, got " ++ shown
  | attributes => "`attrs` must be a dict."
  | parameter name shown => name ++ " must be a finite number, got " ++ shown
  | duration shown => "duration must be a finite number >= 0, got " ++ shown
  | factor shown => "multiply() expects a finite number, got " ++ shown
  | addend => "add() expects a Signal instance."
  | lengths expected got =>
    "Signal lengths differ: expected " ++ natText expected ++ " samples, got " ++ natText got
  | rates expected got =>
    "Signal sample rates differ: expected " ++ floatText expected ++ ", got " ++ floatText got
  | windowLength shown size =>
    "Window length " ++ shown ++ " does not match signal length " ++ natText size
  | windowName shown known => "Unknown window type '" ++ shown ++ "'" ++ oneOf known
  | windowSize size => "Window length must be >= 0, got " ++ intText size
  | waveletName shown known => "Unknown wavelet '" ++ shown ++ "'" ++ oneOf known
  | scales shown => "scales must be a positive integer, got " ++ shown
  | waveletEmpty => "wavelet_transform() needs at least one sample"
  | transformDimensions shape => "FFT input must be 1-D, got shape " ++ shapeText shape
  | transformLength size =>
    "FFT length must be a power of two, got " ++ natText size ++ " samples"
  | decomposition shown known =>
    "Unknown decomposition method '" ++ shown ++ "'" ++ oneOf known
  | modeCount shown => "num_modes must be an integer, got " ++ shown
  | modesTooFew count => "num_modes must be >= 1, got " ++ intText count
  | siftsTooFew count => "max_sifts must be >= 1, got " ++ intText count
  | analysisWindow shown => "window_size must be a positive integer, got " ++ shown
  | analysisEmpty => "analyze() needs at least one sample"
  | statisticEmpty => "signal must contain at least one sample"
  | statisticDimensions shape => "signal must be 1-D, got shape " ++ shapeText shape
  | sweepParameter name shown =>
    "chirp option '" ++ name ++ "' must be a finite number, got " ++ shown
  | sweepMethod shown known => "Unknown chirp method '" ++ shown ++ "'" ++ oneOf known
  | sweepOption key => "Unknown chirp option '" ++ key ++ "'"
  | sweepMissing names => "Missing chirp option(s): " ++ ", ".intercalate names
  | notSignals => "Modes must contain Signal instances only."

end SignalFault

/-- The operations on matrices whose result can leave the finite numbers. -/
inductive GridOperation
  | addition | scaling | multiplication
  deriving DecidableEq, Repr

def GridOperation.name : GridOperation → String
  | addition => "addition"
  | scaling => "scaling"
  | multiplication => "multiplication"

/-- Malformed input to an operation on matrices. -/
inductive GridFault
  | dimensions (shape : List Nat)
  | notGrid
  | notRows
  | ragged
  | tooSmall (shape : List Nat)
  | nonFinite
  | indexForm (row col : String)
  | indexRange (row col : Int) (rows cols : Nat)
  | entry
  | addend
  | sumShape (rows cols otherRows otherCols : Nat)
  | factor (shown : String)
  | multiplier
  | productShape (rows cols otherRows otherCols : Nat)

namespace GridFault

def message : GridFault → String
  | dimensions shape => "Invalid matrix data: expected 2D array, got shape " ++ shapeText shape
  | notGrid => "Invalid matrix data: expected a non-empty 2D array"
  | notRows => "Invalid matrix data: expected 2D array"
  | ragged => "Invalid matrix data: rows must have equal length"
  | tooSmall shape =>
    "Invalid matrix data: expected at least 1x1, got shape " ++ shapeText shape
  | nonFinite => "Invalid matrix data: contains non-finite values (NaN/Inf)."
  | indexForm row col => "Matrix indices must be integers, got (" ++ row ++ ", " ++ col ++ ")"
  | indexRange row col rows cols =>
    "Matrix index (" ++ intText row ++ ", " ++ intText col ++ ") out of range for shape " ++
      sizeText rows cols
  | entry => "Matrix entries must be finite numbers."
  | addend => "add() expects a Matrix instance."
  | sumShape rows cols otherRows otherCols =>
    "Invalid matrix dimensions for addition: expected " ++ sizeText rows cols ++ ", got " ++
      sizeText otherRows otherCols
  | factor shown => "Scale factor must be finite, got " ++ shown
  | multiplier => "multiply() expects a number or a Matrix instance."
  | productShape rows cols otherRows otherCols =>
    "Invalid matrix dimensions for multiplication: left is " ++ sizeText rows cols ++
      ", right is " ++ sizeText otherRows otherCols ++ " (expected right to have " ++
      natText cols ++ " rows)"

end GridFault

/-- The two kinds of local extrema. -/
inductive Extremum
  | max | min
  deriving DecidableEq, Repr

def Extremum.name : Extremum → String
  | max => "max"
  | min => "min"

/-- An envelope asked of a signal with fewer than two extrema of a kind. -/
structure Shortfall where
  kind : Extremum
  found : Nat
  deriving DecidableEq, Repr

/-- The text of an envelope without enough extrema. -/
def shortfallText (kind : String) (found : Nat) : String :=
  "EMD needs at least 2 local " ++ kind ++ "ima to build an envelope, found " ++ natText found

def Shortfall.message (s : Shortfall) : String :=
  shortfallText s.kind.name s.found

/-- Algorithms without a well-defined result. -/
inductive AlgorithmFault
  | extrema (shortfall : Shortfall)
  | mode (number : Nat) (shortfall : Shortfall)
  /-- An envelope of a kind of extrema that there is not, asked of too short a signal. -/
  | unknownExtrema (kind : String)
  | zeroPower
  | constantSignal
  | sweepEnds (start stop : Float)
  | sweepDuration
  | sweepNonFinite
  | gridOverflow (operation : GridOperation)

def AlgorithmFault.message : AlgorithmFault → String
  | extrema shortfall => shortfall.message
  | mode number shortfall =>
    "EMD failed on mode " ++ natText number ++ ": " ++ shortfall.message
  | unknownExtrema kind => shortfallText kind 0
  | zeroPower => "crest factor is undefined for a zero-RMS signal"
  | constantSignal => "kurtosis is undefined for a constant signal"
  | sweepEnds start stop =>
    "Exponential chirp requires non-zero start/end frequencies of the same sign, got start=" ++
      floatText start ++ ", end=" ++ floatText stop
  | sweepDuration => "Exponential chirp requires a positive duration"
  | sweepNonFinite => "Chirp synthesis produced non-finite samples"
  | gridOverflow operation =>
    "Matrix " ++ operation.name ++ " overflowed: result contains non-finite values"

end WaveNotebook
