import WaveNotebook.Fault.Category

/-!
# Faults of types

Data of a type that an operation cannot work on, and arguments that do not go
with the parameters of a function.
-/

namespace WaveNotebook

/-- Arguments that do not go with the parameters of a function. -/
inductive SignatureFault
  /-- A named argument that the function does not have. -/
  | unknown (function name : String)
  /-- An argument that is given by its place and by its name. -/
  | repeated (function name : String)
  /-- More arguments than places, of which a function takes from `least` to `most`; `named` of
  them stand for parameters without a place. -/
  | surplus (function : String) (least most given named : Nat)
  | missing (function : String) (names : List String)

namespace SignatureFault

/-- The ending of a word that stands for several. -/
def plural (several : Bool) : String :=
  if several then "s" else ""

/-- Names in quotes, the last one after a conjunction. -/
def enumeration (names : List String) : String :=
  let quoted := names.map fun name => "'" ++ name ++ "'"
  match quoted.reverse with
  | [] => ""
  | [a] => a
  | [b, a] => a ++ " and " ++ b
  | last :: front => ", ".intercalate front.reverse ++ ", and " ++ last

def message : SignatureFault → String
  | unknown function name =>
    function ++ "() got an unexpected keyword argument '" ++ name ++ "'"
  | repeated function name => function ++ "() got multiple values for argument '" ++ name ++ "'"
  | surplus function least most given named =>
    let range := if least = most then natText most
      else "from " ++ natText least ++ " to " ++ natText most
    let others := if named = 0 then ""
      else " positional argument" ++ plural (given != 1) ++ " (and " ++ natText named ++
        " keyword-only argument" ++ plural (named != 1) ++ ")"
    let several := least != most || most != 1
    function ++ "() takes " ++ range ++ " positional argument" ++ plural several ++ " but " ++
      natText given ++ others ++
      (if given = 1 ∧ named = 0 then " was given" else " were given")
  | missing function names =>
    function ++ "() missing " ++ natText names.length ++ " required positional argument" ++
      plural (names.length != 1) ++ ": " ++ enumeration names

end SignatureFault

/-- Data of a type that an operation cannot work on, by the name of the type. -/
inductive TypeFault
  | notScalar (typeName : String)
  | notReal (typeName : String)
  | notInteger (typeName : String)
  /-- An array with dimensions where a number is wanted. -/
  | dimensioned
  | unhashable (typeName : String)
  | notIterable (typeName : String)
  /-- What is asked whether it holds something, but has no members. -/
  | noMembers (typeName : String)
  | noLength (typeName : String)
  /-- What has no items to be looked up. -/
  | notSubscriptable (typeName : String)
  /-- A place in a list or a tuple that is no integer. -/
  | listIndex (listType typeName : String)
  /-- A place in a text that is no integer. -/
  | characterIndex (typeName : String)
  /-- Two data that an operator does not take. -/
  | operands (operator left right : String)
  /-- Two data without an order. -/
  | order (operator left right : String)
  | signature (fault : SignatureFault)
  /-- What stands where a pair is wanted, and cannot be gone through. -/
  | pairForm (index : Nat)
  /-- An array without dimensions, which cannot be gone through and has no length. -/
  | noDimension
  | unsized
  /-- An integer that is too long for a function on arrays. -/
  | unsupported (function : String)
  | notAValue (typeName : String)

def TypeFault.message : TypeFault → String
  | notScalar t => "float() argument must be a string or a real number, not '" ++ t ++ "'"
  | notReal t => "must be real number, not " ++ t
  | notInteger t =>
    "int() argument must be a string, a bytes-like object or a real number, not '" ++ t ++ "'"
  | dimensioned => "only 0-dimensional arrays can be converted to Python scalars"
  | unhashable t => "unhashable type: '" ++ t ++ "'"
  | notIterable t => "'" ++ t ++ "' object is not iterable"
  | noMembers t => "argument of type '" ++ t ++ "' is not iterable"
  | noLength t => "object of type '" ++ t ++ "' has no len()"
  | notSubscriptable t => "'" ++ t ++ "' object is not subscriptable"
  | listIndex l t => l ++ " indices must be integers or slices, not " ++ t
  | characterIndex t => "string indices must be integers, not '" ++ t ++ "'"
  | operands operator left right =>
    "unsupported operand type(s) for " ++ operator ++ ": '" ++ left ++ "' and '" ++ right ++ "'"
  | order operator left right =>
    "'" ++ operator ++ "' not supported between instances of '" ++ left ++ "' and '" ++ right ++ "'"
  | signature fault => fault.message
  | pairForm index =>
    "cannot convert dictionary update sequence element #" ++ natText index ++ " to a sequence"
  | noDimension => "iteration over a 0-d array"
  | unsized => "len() of unsized object"
  | unsupported function =>
    "ufunc '" ++ function ++ "' not supported for the input types, and the inputs could not be " ++
      "safely coerced to any supported types according to the casting rule ''safe''"
  | notAValue t => "Not a workspace value: " ++ t

end WaveNotebook
