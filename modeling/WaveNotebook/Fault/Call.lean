import WaveNotebook.Fault.Signal

/-!
# Faults of calls and settings

Arguments that do not fit a method, entries that a method table refuses, and
settings out of range.
-/

namespace WaveNotebook

/-- Calls of methods and builtins that do not fit, and entries that a table refuses. -/
inductive CallFault
  | arity (method : String) (least most : Int) (got : Nat)
  | receiverKind (kind : String)
  | methodName (shown : String)
  | handler (kind name : String)
  | duplicate (name kind : String)
  | arityRange (kind name : String)
  | notNumber (method given : String)
  | notIndex (method : String) (given : Float)
  | notOptions (method given : String)
  | option (key method : String) (known : List String)
  | optionInteger (method key shown : String)
  | windowType
  | metricsMissing
  | metricsForm
  | notSignal (given : String)
  | notMatrix (given : String)
  | notFactor (given : String)
  | modeIndex (index : Int) (count : Nat)
  | metricName (given : String)
  | builtinName
  | builtinAction (name : String)
  | missingArgument (function name : String)
  | surplusArguments (function : String)

namespace CallFault

/-- A single number of arguments, or the first and the last of several. -/
def arityText (least most : Int) : String :=
  if least = most then intText least else intText least ++ "-" ++ intText most

def message : CallFault → String
  | arity method least most got =>
    method ++ "() expects " ++ arityText least most ++ " argument(s), got " ++ natText got
  | receiverKind kind => "Values of kind '" ++ kind ++ "' cannot have methods."
  | methodName shown => "Invalid method name " ++ shown ++ "."
  | handler kind name => "Handler for " ++ kind ++ "." ++ name ++ " must be callable."
  | duplicate name kind => "Method '" ++ name ++ "' is already registered for " ++ kind ++ "."
  | arityRange kind name => kind ++ "." ++ name ++ ": max_args < min_args."
  | notNumber method given => method ++ "() expects a number, got " ++ given
  | notIndex method given => method ++ "() expects an integer index, got " ++ floatText given
  | notOptions method given => method ++ "() expects an options object, got " ++ given
  | option key method known =>
    "Unknown option '" ++ key ++ "' for " ++ method ++ "()" ++ SignalFault.oneOf known
  | optionInteger method key shown =>
    method ++ "(): option '" ++ key ++ "' must be an integer, got " ++ shown
  | windowType => "applyWindow() requires a window 'type'"
  | metricsMissing => "analyze() requires a 'metrics' list"
  | metricsForm => "analyze(): 'metrics' must be a list of metric names"
  | notSignal given => "add() expects a Signal, got " ++ given
  | notMatrix given => "add() expects a Matrix, got " ++ given
  | notFactor given => "multiply() expects a number or a Matrix, got " ++ given
  | modeIndex index count =>
    "Mode index " ++ intText index ++ " out of range for " ++ natText count ++ " modes"
  | metricName given => "get() expects a metric name, got " ++ given
  | builtinName => "Builtin.name must be a non-empty string."
  | builtinAction name => "Builtin '" ++ name ++ "' must wrap a callable."
  | missingArgument function name =>
    function ++ "(): missing a required argument: '" ++ name ++ "'"
  | surplusArguments function => function ++ "(): too many positional arguments"

end CallFault

/-- Settings and metadata out of range, and documents of the wrong form. -/
inductive SettingFault
  | rate (shown : String)
  | marker
  | preview (shown : String)
  | sifts (shown : String)
  | topLevel (path : String)
  | section (path : String)
  | metadataTime
  | metadataMemory
  | metadataPrecision

def SettingFault.message : SettingFault → String
  | rate shown => "default_sample_rate must be > 0, got " ++ shown
  | marker => "comment_marker must be a non-empty string"
  | preview shown => "preview_samples must be an integer >= 0, got " ++ shown
  | sifts shown => "max_sifts must be an integer >= 1, got " ++ shown
  | topLevel path => path ++ ": expected a mapping at the top level"
  | .section path => path ++ ": 'workspace' must be a mapping"
  | metadataTime => "ResultMetadata.computation_time must be >= 0."
  | metadataMemory => "ResultMetadata.memory_used must be >= 0."
  | metadataPrecision => "ResultMetadata.precision is fixed at 64."

end WaveNotebook
