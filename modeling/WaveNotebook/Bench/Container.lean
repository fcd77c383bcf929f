import WaveNotebook.Bench.Basic

/-!
# What holds items

Lists, texts, records, arrays, tuples and modes hold items that can be counted,
gone through and looked up by their place, from the end if it is negative. Metrics
are looked up by name, and a record by its keys.
-/

namespace WaveNotebook.Bench

variable (b : Bench)

def typeFault {α : Type} (fault : TypeFault) : Except Fault α :=
  .error (.numeric (.type fault))

def lookupFault {α : Type} (fault : LookupFault) : Except Fault α :=
  .error (.numeric (.lookup fault))

/-- A complex number, of which only the type is known. -/
def complexDatum : Datum :=
  .ofType "complex128" ""

/-- The items of a thing that is like a list. -/
def itemsOf? : Thing → Option (List Datum)
  | .modes signals => some signals
  | .tuple items => some items
  | .spectrum zs => some (zs.map fun _ => complexDatum)
  | .kind k => some (k.name.toList.map fun c => .text c.toString)
  | _ => none

/-- The items of a datum. Metrics are asked for the item at the first place, which they do not
have. -/
def items (d : Datum) : Except Fault (List Datum) :=
  match b.thingOf? d with
  | some (.metrics _) => .error (.name (.metric (natText 0)))
  | some t => ((itemsOf? t).map .ok).getD (typeFault (.notIterable d.fullTypeName))
  | none => d.items.mapError fun fault => .numeric (.type fault)

/-- How many items a datum holds. -/
def length (d : Datum) : Except Fault Nat :=
  match b.thingOf? d with
  | some t =>
    match itemsOf? t with
    | some items => .ok items.length
    | none => typeFault (.noLength d.typeName)
  | none =>
    match d with
    | .list _ | .record _ | .text _ | .array (_ :: _) _ => return (← b.items d).length
    | .array [] _ => typeFault .unsized
    | d => typeFault (.noLength d.typeName)

/-- The integer that a datum is as a place. -/
def place? : Datum → Option Int
  | .integer n => some n
  | .bool b => some (if b then 1 else 0)
  | _ => none

/-- The item at a place, which counts from the end if it is negative. -/
def itemAt? (items : List Datum) (place : Int) : Option Datum :=
  let place := if place < 0 then place + items.length else place
  if place < 0 then none else items[place.toNat]?

/-- The item at a place of something like a list, of which the type has a name. -/
def itemIn (container : String) (items : List Datum) (place : Datum) : Except Fault Datum :=
  match place? place with
  | none => typeFault (.listIndex container place.fullTypeName)
  | some n =>
    match itemAt? items n with
    | some d => .ok d
    | none => lookupFault (.place container)

def characterIn (s : String) (place : Datum) : Except Fault Datum :=
  match place? place with
  | none => typeFault (.characterIndex place.fullTypeName)
  | some n =>
    match itemAt? (s.toList.map fun c => .text c.toString) n with
    | some d => .ok d
    | none => lookupFault (.place "string")

/-- The part of an array at a place of its first dimension. -/
def partIn (shape : List Nat) (cells : List Float) (place : Datum) : Except Fault Datum :=
  match place? place with
  | none => lookupFault .arrayIndex
  | some n =>
    match Datum.rowsOfArray shape cells with
    | .error _ => lookupFault (.dimensions 0 1)
    | .ok rows =>
      match itemAt? rows n with
      | some d => .ok d
      | none => lookupFault (.arrayPlace n rows.length)

/-- The value under a key; only texts are keys of a record. -/
def valueIn (fields : Record) (key : Datum) : Except Fault Datum :=
  match key.keyFault? with
  | some fault => typeFault fault
  | none =>
    let found := match key with
      | .text s => fields.lookup s
      | _ => none
    match found with
    | some d => .ok d
    | none => lookupFault (.key key.shown)

/-- The metric under a name. -/
def metricIn (values : Record) (name : Datum) : Except Fault Datum :=
  match name.keyFault? with
  | some fault => typeFault fault
  | none =>
    let found := match name with
      | .text s => values.lookup s
      | _ => none
    match found with
    | some d => .ok d
    | none => .error (.name (.metric name.plain))

/-- What is found at a place, under a key or by a name. -/
def item (d place : Datum) : Except Fault Datum :=
  match b.thingOf? d, d with
  | some (.metrics values), _ => metricIn values place
  | some (.spectrum zs), _ => do
    let _ ← partIn [zs.length] (zs.map (·.re)) place
    return complexDatum
  | some (.kind k), _ => characterIn k.name place
  | some t, _ =>
    match itemsOf? t with
    | some items => itemIn "tuple" items place
    | none => typeFault (.notSubscriptable d.fullTypeName)
  | none, .list items => itemIn d.typeName items place
  | none, .text s => characterIn s place
  | none, .record fields => valueIn fields place
  | none, .array shape cells => partIn shape cells place
  | none, _ => typeFault (.notSubscriptable d.fullTypeName)

/-- Adds the field that a pair describes, which is the one at some place in a list. -/
def addPair (fields : Record) (pair : Nat × Datum) : Except Fault Record :=
  match b.items pair.2 with
  | .error (.numeric (.type _)) => typeFault (.pairForm pair.1)
  | .error fault => .error fault
  | .ok [key, value] =>
    match key.keyFault? with
    | some fault => typeFault fault
    | none => .ok (Record.put fields key.plain value)
  | .ok items => .error (.numeric (.pairLength pair.1 items.length))

/-- The record that a datum is or that its pairs describe. -/
def record (d : Datum) : Except Fault Record :=
  match d with
  | .record fields => .ok fields
  | d => do
    let pairs ← b.items d
    ((List.range pairs.length).zip pairs).foldlM (b.addPair) []

end WaveNotebook.Bench
