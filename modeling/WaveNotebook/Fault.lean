import WaveNotebook.Fault.Call
import WaveNotebook.Fault.Conversion
import WaveNotebook.Fault.Text

/-!
# Faults

Everything that can go wrong is a cause with its data; the wording is in the
`message` of the cause alone. A fault has a category, and some faults carry the
fault that brought them about.
-/

namespace WaveNotebook

inductive Fault
  | numeric (fault : NumericFault)
  | literal (error : LiteralError)
  | text (fault : TextFault)
  | name (fault : NameFault)
  | signal (fault : SignalFault)
  | grid (fault : GridFault)
  | call (fault : CallFault)
  | setting (fault : SettingFault)
  | algorithm (fault : AlgorithmFault)
  /-- The text of a matrix is not a grid of numbers. -/
  | gridText (cause : Option LiteralError)
  /-- The text of an option bag is not a record. -/
  | optionsText (cause : Option LiteralError)
  | signalEntries (cause : NumericFault)
  | gridEntries (cause : NumericFault)
  | samples (count : Nat) (cause : NumericFault)
  | outOfMemory (cause : NumericFault)
  /-- A malformed document at a path. -/
  | document (path : String) (error : Document.Malformed)
  /-- A failing line of a notebook text, counted from one. -/
  | line (number : Nat) (source : String) (cause : Fault)

namespace Fault

def category : Fault → Category
  | numeric fault => fault.category
  | literal _ => .literalSyntax
  | name _ => .undefinedName
  | algorithm _ => .algorithmFailure
  | text _ | signal _ | grid _ | call _ | setting _ | gridText _ | optionsText _
  | signalEntries _ | gridEntries _ => .invalidInput
  | samples .. | outOfMemory _ => .allocation
  | document _ error => .malformed error.problem.stage
  | line .. => .evaluation

def message : Fault → String
  | numeric fault => fault.message
  | literal error => error.message
  | text fault => fault.message
  | name fault => fault.message
  | signal fault => fault.message
  | grid fault => fault.message
  | call fault => fault.message
  | setting fault => fault.message
  | algorithm fault => fault.message
  | gridText _ => "Invalid matrix data format"
  | optionsText _ => "Invalid options object format"
  | signalEntries _ => "Invalid signal data: array must contain only numbers"
  | gridEntries _ => "Invalid matrix data: entries must be numbers"
  | samples count _ => "Cannot allocate " ++ natText count ++ " samples"
  | outOfMemory cause => "Out of memory: " ++ cause.message
  | document path error => error.message path
  | line number source cause =>
    "Execution error on line " ++ natText number ++ " \"" ++ source ++ "\": " ++ cause.message

/-- The fault that brought about another one. -/
def cause? : Fault → Option Fault
  | gridText cause | optionsText cause => cause.map literal
  | signalEntries cause | gridEntries cause | samples _ cause | outOfMemory cause =>
    some (numeric cause)
  | algorithm (.mode _ shortfall) => some (algorithm (.extrema shortfall))
  | line _ _ cause => some cause
  | _ => none

/-- Where in its text a literal went wrong. -/
def position? : Fault → Option Nat
  | literal error => some error.position
  | _ => none

end Fault

end WaveNotebook
