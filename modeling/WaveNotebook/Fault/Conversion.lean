import WaveNotebook.Fault.Lookup
import WaveNotebook.Fault.Shape
import WaveNotebook.Fault.Type

/-!
# Faults of conversions and sizes

Data of the wrong type, texts that are no numbers, numbers beyond a range, arrays
without room and calls without a frame left know nothing of notebooks. They are
not classified by kind, and only their category shows when they are the cause of
another fault.
-/

namespace WaveNotebook

/-- Faults of conversions and sizes. -/
inductive NumericFault
  | infiniteInteger
  | undefinedInteger
  | integerText (base : Nat) (shown : String)
  /-- More decimal digits than are read as an integer. -/
  | digitLimit (digits : Nat)
  /-- An integer of more decimal digits than are written. -/
  | writtenDigitLimit
  | date (fault : DateFault)
  | hugeInteger
  | hugeSquare
  | logarithm
  | zeroDivision
  /-- A text that is no number. -/
  | notNumeric (shown : String)
  /-- A text with underscores outside of numbers, or one that is no complex number. -/
  | complexGrouping (shown : String)
  | complexText
  /-- What stands where a pair is wanted, and holds more or less than two items. -/
  | pairLength (index length : Nat)
  /-- No truth value or several ones where there must be one. -/
  | ambiguous (count : Nat)
  | extremum
  /-- What is none of the values that a type has. -/
  | notAmong (shown typeName : String)
  | sizeLimit
  | dimensionLimit
  | sizeProduct
  | noMemory (bytes : Nat) (shape : List Nat) (element : String)
  /-- Calls that are nested deeper than there are frames for them. -/
  | recursion
  | type (fault : TypeFault)
  | lookup (fault : LookupFault)
  | shape (fault : ShapeFault)

namespace NumericFault

def category : NumericFault → Category
  | infiniteInteger | hugeInteger | hugeSquare => .overflow
  | zeroDivision => .zeroDivision
  | undefinedInteger | integerText .. | digitLimit _ | writtenDigitLimit | date _ | logarithm
  | notNumeric _ | complexGrouping _ | complexText | pairLength .. | ambiguous _ | extremum
  | notAmong .. | sizeLimit | dimensionLimit | sizeProduct | shape _ => .badValue
  | noMemory .. => .exhausted
  | recursion => .recursion
  | type _ => .badType
  | lookup fault => fault.category

/-- The names of the binary multiples of a byte. -/
def byteUnits : List String := ["bytes", "KiB", "MiB", "GiB", "TiB", "PiB", "EiB"]

/-- A number of bytes to three significant digits in the greatest unit that is not above it. -/
def bytesText (bytes : Nat) : String :=
  let i := min (bytes.log2 / 10) (byteUnits.length - 1)
  let unit := Nat.pow 1024 i
  let name := byteUnits.getD i ""
  let scaled (places : Nat) := Binary64.divNearest (bytes * Nat.pow 10 places) unit
  let pointed (places : Nat) :=
    let ds := Text.digitsOf (scaled places)
    String.ofList (ds.take (ds.length - places) ++ '.' :: ds.drop (ds.length - places))
  if i = 0 then natText bytes ++ " " ++ name
  else if scaled 2 < 1000 then pointed 2 ++ " " ++ name
  else if scaled 1 < 1000 then pointed 1 ++ " " ++ name
  else natText (scaled 0) ++ ". " ++ name

def message : NumericFault → String
  | infiniteInteger => "cannot convert float infinity to integer"
  | undefinedInteger => "cannot convert float NaN to integer"
  | integerText base shown =>
    "invalid literal for int() with base " ++ natText base ++ ": " ++ shown
  | digitLimit digits =>
    "Exceeds the limit (4300 digits) for integer string conversion: value has " ++ natText digits ++
      " digits; use sys.set_int_max_str_digits() to increase the limit"
  | writtenDigitLimit =>
    "Exceeds the limit (4300 digits) for integer string conversion;" ++
      " use sys.set_int_max_str_digits() to increase the limit"
  | date fault => fault.message
  | hugeInteger => "int too large to convert to float"
  | hugeSquare => "(34, 'Numerical result out of range')"
  | logarithm => "math domain error"
  | zeroDivision => "float division by zero"
  | notNumeric shown => "could not convert string to float: " ++ shown
  | complexGrouping shown => "could not convert string to complex: " ++ shown
  | complexText => "complex() arg is a malformed string"
  | pairLength index length =>
    "dictionary update sequence element #" ++ natText index ++ " has length " ++ natText length ++
      "; 2 is required"
  | ambiguous 0 =>
    "The truth value of an empty array is ambiguous. Use `array.size > 0` to check that an array" ++
      " is not empty."
  | ambiguous _ =>
    "The truth value of an array with more than one element is ambiguous. Use a.any() or a.all()"
  | extremum => "kind must be one of: max, min"
  | notAmong shown typeName => shown ++ " is not a valid " ++ typeName
  | sizeLimit => "Maximum allowed size exceeded"
  | dimensionLimit => "Maximum allowed dimension exceeded"
  | sizeProduct =>
    "array is too big; `arr.size * arr.dtype.itemsize` is larger than the maximum possible size."
  | noMemory bytes lengths element =>
    "Unable to allocate " ++ bytesText bytes ++ " for an array with shape " ++ shapeText lengths ++
      " and data type " ++ element
  | recursion => "maximum recursion depth exceeded"
  | type fault => fault.message
  | lookup fault => fault.message
  | shape fault => fault.message

end NumericFault

end WaveNotebook
