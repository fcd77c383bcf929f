import WaveNotebook.Fault.Category

/-!
# Faults of look-ups and dates

Places, keys and members that data do not have, and dates that no calendar has.
-/

namespace WaveNotebook

/-- Parts of a date or of a time of day that are out of range. -/
inductive DateFault
  | year (n : Nat)
  | month
  | day
  | hour
  | minute
  | second
  /-- The distance from universal time in its written form. -/
  | zone (shown : String)

def DateFault.message : DateFault → String
  | year n => "year " ++ natText n ++ " is out of range"
  | month => "month must be in 1..12"
  | day => "day is out of range for month"
  | hour => "hour must be in 0..23"
  | minute => "minute must be in 0..59"
  | second => "second must be in 0..59"
  | zone shown =>
    "offset must be a timedelta strictly between -timedelta(hours=24) and timedelta(hours=24)," ++
      " not " ++ shown

/-- Places, keys and members that data do not have. -/
inductive LookupFault
  /-- A place behind the end of a text, a list or a tuple. -/
  | place (container : String)
  /-- A place behind the end of an array. -/
  | arrayPlace (index : Int) (size : Nat)
  /-- A place in an array that is no integer. -/
  | arrayIndex
  /-- More places than an array has dimensions. -/
  | dimensions (known asked : Nat)
  /-- A key in written form. -/
  | key (shown : String)
  | member (typeName name : String)

namespace LookupFault

def category : LookupFault → Category
  | place _ | arrayPlace .. | arrayIndex | dimensions .. => .badIndex
  | key _ => .missingKey
  | member .. => .missingMember

def message : LookupFault → String
  | place container => container ++ " index out of range"
  | arrayPlace index size =>
    "index " ++ intText index ++ " is out of bounds for axis 0 with size " ++ natText size
  | arrayIndex =>
    "only integers, slices (\x60:\x60), ellipsis (\x60...\x60), numpy.newaxis (\x60None\x60)" ++
      " and integer or boolean arrays are valid indices"
  | dimensions known asked =>
    "too many indices for array: array is " ++ natText known ++ "-dimensional, but " ++
      natText asked ++ " were indexed"
  | key shown => shown
  | member t name => "'" ++ t ++ "' object has no attribute '" ++ name ++ "'"

end LookupFault

end WaveNotebook
