import WaveNotebook.Document.Problem

/-!
# Classes of faults

A fault belongs to a category, which fixes its broad kind of error. The texts of
numbers and sizes that messages share are here too.
-/

namespace WaveNotebook

inductive ErrorKind
  | validation | computation | runtime | memory
  deriving DecidableEq, Repr

namespace ErrorKind

def name : ErrorKind → String
  | validation => "validation"
  | computation => "computation"
  | runtime => "runtime"
  | memory => "memory"

def ofName? (s : String) : Option ErrorKind :=
  [validation, computation, runtime, memory].find? (·.name == s)

end ErrorKind

/-- The classes of faults. Those without a kind of error belong to plain conversions, sizes,
nesting and look-ups, and to malformed documents. -/
inductive Category
  | general | invalidInput | literalSyntax | undefinedName | algorithmFailure | evaluation
  | allocation
  | badValue | badType | overflow | zeroDivision | exhausted | recursion | badIndex | missingKey
  | missingMember
  | malformed (stage : Document.Stage)
  /-- A class by its name, of which no fault here is. -/
  | foreign (name : String)
  deriving DecidableEq, Repr

/-- The kind of error of a class, for the classes that have one. -/
def Category.kind? : Category → Option ErrorKind
  | .general | .algorithmFailure => some .computation
  | .invalidInput | .literalSyntax | .undefinedName => some .validation
  | .evaluation => some .runtime
  | .allocation => some .memory
  | .badValue | .badType | .overflow | .zeroDivision | .exhausted | .recursion | .badIndex
  | .missingKey | .missingMember | .malformed _ | .foreign _ => none

/-- Whether a failing line of a notebook takes up a fault of the class. Places, keys and members
that data do not have, and malformed documents, have no part in statements; nesting that is too
deep has, but goes past the line. -/
def Category.isStatementCause : Category → Bool
  | .general | .invalidInput | .literalSyntax | .undefinedName | .algorithmFailure | .evaluation
  | .allocation | .badValue | .badType | .overflow | .zeroDivision | .exhausted => true
  | .recursion | .badIndex | .missingKey | .missingMember | .malformed _ | .foreign _ => false

/-- Decimal digits of a count. -/
def natText (n : Nat) : String :=
  String.ofList (Text.digitsOf n)

def intText (n : Int) : String :=
  String.ofList (integerText n)

def floatText (x : Float) : String :=
  String.ofList (numberText x)

/-- Dimensions as a tuple, with a comma after a single one. -/
def shapeText : List Nat → String
  | [n] => "(" ++ natText n ++ ",)"
  | ns => "(" ++ ", ".intercalate (ns.map natText) ++ ")"

/-- Dimensions as a tuple without blanks. -/
def spacelessText : List Nat → String
  | [n] => shapeText [n]
  | ns => "(" ++ ",".intercalate (ns.map natText) ++ ")"

def sizeText (rows cols : Nat) : String :=
  natText rows ++ "x" ++ natText cols

end WaveNotebook
