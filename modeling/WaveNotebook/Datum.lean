import WaveNotebook.Fault
import WaveNotebook.Number.ArrayText
import WaveNotebook.Number.Reading
import WaveNotebook.Text.Quoted

/-!
# Plain data

Literals, attributes of signals, option bags and settings are made of plain
data. A record keeps its fields in the order of their first appearance. Two
further forms occur only as loosely typed arguments: an array of numbers with
its dimensions, and an object that is known by its label alone.
-/

namespace WaveNotebook

/-- What messages need to know of an object. -/
structure Label where
  typeName : String
  /-- The written form. -/
  shown : String
  /-- The form inside a sentence. -/
  plain : String
  /-- The type because of which the object cannot be a key: its own, or that of a part. -/
  keyless : Option String
  /-- Where the object lies among others, if it lies anywhere. -/
  place : Option Nat
  deriving Inhabited

inductive Datum
  | null
  | bool (b : Bool)
  | integer (n : Int)
  | number (x : Float)
  | text (s : String)
  | list (items : List Datum)
  | record (fields : List (String × Datum))
  | array (shape : List Nat) (cells : List Float)
  | object (label : Label)
  deriving Inhabited

abbrev Record := List (String × Datum)

/-- A repeated key keeps its place and takes the new value. -/
def Record.put {α : Type} (fields : List (String × α)) (key : String) (value : α) :
    List (String × α) :=
  if fields.any (·.1 == key) then
    fields.map fun f => if f.1 == key then (key, value) else f
  else fields ++ [(key, value)]

namespace Datum

/-- An object that lies nowhere and has one form only. -/
def ofType (typeName shown : String) : Datum :=
  object ⟨typeName, shown, shown, none, none⟩

/-- The name of the type of a datum, for messages. -/
def typeName : Datum → String
  | null => "NoneType"
  | bool _ => "bool"
  | integer _ => "int"
  | number _ => "float"
  | text _ => "str"
  | list _ => "list"
  | record _ => "dict"
  | array .. => "ndarray"
  | object label => label.typeName

/-- The name of a type with that of the module that it comes from. -/
def fullName (typeName : String) : String :=
  if typeName = "ndarray" then "numpy." ++ typeName else typeName

def fullTypeName (d : Datum) : String :=
  fullName d.typeName

def boolText (b : Bool) : String :=
  if b then "True" else "False"

def quotedText (s : String) : String :=
  String.ofList (Text.quoted s.toList)

mutual

/-- The written form of a datum in messages, in which texts are quoted. -/
def shown : Datum → String
  | null => "None"
  | bool b => boolText b
  | integer n => intText n
  | number x => floatText x
  | text s => quotedText s
  | list items => "[" ++ ", ".intercalate (shownItems items) ++ "]"
  | record fields => "\x7b" ++ ", ".intercalate (shownFields fields) ++ "\x7d"
  | array shape cells => ArrayText.shownReals shape cells
  | object label => label.shown

def shownItems : List Datum → List String
  | [] => []
  | d :: ds => d.shown :: shownItems ds

def shownFields : List (String × Datum) → List String
  | [] => []
  | f :: fs => (quotedText f.1 ++ ": " ++ f.2.shown) :: shownFields fs

end

/-- The greatest number of decimal digits of an integer that is read from a text or written into
one. -/
def mostDigits : Nat := 4300

mutual

/-- Whether a datum has a written form: an integer with too many digits has none. -/
def isShowable : Datum → Bool
  | integer n => n.natAbs < Nat.pow 10 mostDigits
  | list items => itemsShowable items
  | record fields => fieldsShowable fields
  | _ => true

def itemsShowable : List Datum → Bool
  | [] => true
  | d :: ds => d.isShowable && itemsShowable ds

def fieldsShowable : List (String × Datum) → Bool
  | [] => true
  | f :: fs => f.2.isShowable && fieldsShowable fs

end

/-- The form of a datum inside a sentence: a text stands for itself. -/
def plain : Datum → String
  | text s => s
  | array shape cells => ArrayText.plainReals shape cells
  | object label => label.plain
  | d => d.shown

/-- Numbers are doubles and integers; a truth value is none. -/
def isNumber : Datum → Bool
  | integer _ | number _ => true
  | _ => false

/-- Whether a datum counts as true: zeros and empty data do not. -/
def isTruthy : Datum → Bool
  | null => false
  | bool b => b
  | integer n => n != 0
  | number x => x != 0.0
  | text s => !s.isEmpty
  | list items => !items.isEmpty
  | record fields => !fields.isEmpty
  | array .. | object .. => true

def text? : Datum → Option String
  | text s => some s
  | _ => none

def isText (key : String) (d : Datum) : Bool :=
  d.text? == some key

/-- Why a datum cannot serve as a key, if it cannot: lists, records and arrays do not. -/
def keyFault? : Datum → Option TypeFault
  | object label => label.keyless.map .unhashable
  | d =>
    match d with
    | list _ | record _ | array .. => some (.unhashable d.fullTypeName)
    | _ => none

/-- The truth value of an array of them, which must have a single one. -/
def truthOfArray : List Bool → Except NumericFault Bool
  | [b] => .ok b
  | bs => .error (.ambiguous bs.length)

/-- The text that a datum shares with texts that it is compared with, if it is one. An array is
compared entry by entry, which leaves a single truth value only if it has a single entry. -/
def comparedText : Datum → Except NumericFault (Option String)
  | text s => .ok (some s)
  | array _ cells => do
    let _ ← truthOfArray (cells.map fun _ => false)
    return none
  | _ => .ok none

/-- The parts of an array along its first dimension. -/
def rowsOfArray : List Nat → List Float → Except TypeFault (List Datum)
  | [], _ => .error .noDimension
  | [_], cells => .ok (cells.map number)
  | n :: shape, cells =>
    let stride := shape.foldl (· * ·) 1
    .ok ((List.range n).map fun i => array shape ((cells.drop (i * stride)).take stride))

/-- What a datum holds, one after the other: a record its keys, a text its characters. -/
def items : Datum → Except TypeFault (List Datum)
  | list items => .ok items
  | record fields => .ok (fields.map fun f => text f.1)
  | text s => .ok (s.toList.map fun c => text c.toString)
  | array shape cells => rowsOfArray shape cells
  | d => .error (.notIterable d.fullTypeName)

/-- An integer as a double; one beyond the doubles is a fault. -/
def doubleOf (n : Int) : Except NumericFault Float :=
  (Binary64.ofInt? n).elim (.error .hugeInteger) .ok

/-- A number as a double. -/
def toFloat? : Datum → Except NumericFault (Option Float)
  | number x => .ok (some x)
  | integer n => some <$> doubleOf n
  | _ => .ok none

/-- The number that a datum is or spells. -/
def spelledNumber : Datum → Except NumericFault Float
  | number x => .ok x
  | integer n => doubleOf n
  | bool b => .ok (if b then 1.0 else 0.0)
  | text s =>
    match readFloat? s.toList with
    | some x => .ok x
    | none => .error (.notNumeric (quotedText s))
  | array [] [x] => .ok x
  | array .. => .error (.type .dimensioned)
  | d => .error (.type (.notScalar d.fullTypeName))

/-- A finite number, if the datum is one. -/
def finite? (d : Datum) : Except NumericFault (Option Float) := do
  return (← d.toFloat?).filter Binary64.isFinite

/-- The integral part of a double. -/
def integralPart (x : Float) : Except NumericFault Int :=
  if Binary64.isNaN x then .error .undefinedInteger
  else if Binary64.isFinite x then .ok (Binary64.truncate x)
  else .error .infiniteInteger

/-- The integral part of a number, or the integer that a text spells. -/
def integerPart : Datum → Except NumericFault Int
  | integer n => .ok n
  | text s =>
    match readInteger? s.toList with
    | some n => .ok n
    | none => .error (.integerText 10 (quotedText s))
  | number x => integralPart x
  | bool b => .ok (if b then 1 else 0)
  | array [] [x] => integralPart x
  | array .. => .error (.type .dimensioned)
  | d => .error (.type (.notInteger d.fullTypeName))

/-- The integer that a datum is equal to; a text is equal to none. -/
def integer? (d : Datum) : Except NumericFault (Option Int) := do
  let n ← d.integerPart
  match d with
  | number x | array [] [x] => return if Binary64.isInteger x then some n else none
  | text _ => return none
  | _ => return some n

end Datum

end WaveNotebook
