import WaveNotebook.Value

/-!
# Results of operations

Metadata say what an operation has cost and whether it went well. They inform and
decide nothing, so that most of what is given is kept as it is. But a time or a
size below zero is refused, and so is a precision other than that of doubles.
-/

namespace WaveNotebook

structure Metadata where
  seconds : Datum
  memory : Datum
  precision : Datum
  success : Datum
  error : Datum

namespace Metadata

/-- The bits of a double. -/
def precisionBits : Int := 64

/-- Whether a datum with an order among the integers is below zero. -/
def isNegative : Datum → Except Fault Bool
  | .integer n => .ok (n < 0)
  | .number x => .ok (x < 0.0)
  | .bool _ => .ok false
  | d => .error (.numeric (.type (.order "<" d.typeName (Datum.integer 0).typeName)))

def isPrecision : Datum → Bool
  | .integer n => n == precisionBits
  | .number x => x == 64.0
  | _ => false

/-- The fields of metadata. -/
def fieldNames : List String :=
  ["computation_time", "memory_used", "precision", "success", "error"]

/-- Metadata from fields, each of which has a default. -/
def ofRecord (fields : Record) : Except Fault Metadata := do
  match fields.find? fun field => !fieldNames.contains field.1 with
  | some field =>
    .error (.numeric (.type (.signature (.unknown "ResultMetadata.__init__" field.1))))
  | none =>
    let field (key : String) (fallback : Datum) := (fields.lookup key).getD fallback
    let seconds := field "computation_time" (.number 0.0)
    let memory := field "memory_used" (.integer 0)
    let precision := field "precision" (.integer precisionBits)
    if ← isNegative seconds then .error (.setting .metadataTime)
    else if ← isNegative memory then .error (.setting .metadataMemory)
    else if !isPrecision precision then .error (.setting .metadataPrecision)
    else return ⟨seconds, memory, precision, field "success" (.bool true), field "error" .null⟩

/-- The metadata of an operation that has produced so many bytes. -/
def ofBytes (bytes : Nat) : Metadata :=
  ⟨.number 0.0, .integer bytes, .integer precisionBits, .bool true, .null⟩

end Metadata

/-- What an operation yields, with its metadata. -/
structure Computed (β : Type) where
  data : β
  metadata : Metadata

namespace Computed

/-- A value with the size of its numbers. -/
def ofValue (store : Store Float) (v : Value) : Computed Value :=
  ⟨v, .ofBytes (v.bytes store)⟩

/-- Real numbers, each a double. -/
def ofReals (xs : List Float) : Computed (List Float) :=
  ⟨xs, .ofBytes (8 * xs.length)⟩

/-- Complex numbers, each two doubles. -/
def ofSpectrum (zs : List (Cartesian Float)) : Computed (List (Cartesian Float)) :=
  ⟨zs, .ofBytes (16 * zs.length)⟩

end Computed

end WaveNotebook
