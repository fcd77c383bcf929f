import WaveNotebook.Datum

/-!
# Detecting dimensions

The dimensions of nested data are detected in one pass, depth first. The first
item at each depth fixes the length there, and the first entry fixes how many
dimensions there are. Data that do not fit leave the dimensions that are common
to everything before them, so that a message can name these.
-/

namespace WaveNotebook

/-- What is known of the dimensions so far. -/
structure Detection where
  /-- The greatest number of dimensions that is still possible. -/
  most : Nat
  lengths : List Nat
  /-- Whether an entry or an empty list has been reached. -/
  settled : Bool
  ragged : Bool

namespace Detection

/-- Up to so many dimensions are possible. -/
def mostDimensions : Nat := 64

def start : Detection := ⟨mostDimensions, [], false, false⟩

def markRagged (d : Detection) : Detection := { d with ragged := true }

/-- A list of some length at a depth. -/
def sequence (d : Detection) (depth length : Nat) : Detection :=
  if d.most < depth + 1 then d.markRagged
  else if !d.settled then { d with lengths := d.lengths.take depth ++ [length] }
  else if d.lengths[depth]? = some length then d
  else { d.markRagged with most := depth }

/-- How many of the lengths agree with those known from a depth on. -/
def agreeing (d : Detection) (depth : Nat) (shape : List Nat) : Nat :=
  ((shape.zip (d.lengths.drop depth)).takeWhile fun p => p.1 == p.2).length

/-- Entries with dimensions of their own at a depth; a single entry has none. -/
def entries (d : Detection) (depth : Nat) (shape : List Nat) : Detection :=
  let total := depth + shape.length
  let fits := total ≤ d.most
  let shape := shape.take (d.most - depth)
  let late := fits && d.most != total && d.settled
  let d := if fits then { d with most := total } else d
  let d := if !fits || late then d.markRagged else d
  if !d.settled then
    { d with lengths := d.lengths.take depth ++ shape, settled := true }
  else
    let agreed := d.agreeing depth shape
    if agreed = shape.length then d
    else { d.markRagged with most := d.most - (shape.length - agreed) }

mutual

def look (d : Detection) (depth : Nat) : Datum → Detection
  | .array shape _ => d.entries depth shape
  | .list items =>
    if depth = d.most then (d.entries depth []).markRagged
    else
      let found := d.sequence depth items.length
      if found.most < depth + 1 then found
      else if items.isEmpty then { found with most := depth + 1, settled := true }
      else lookAll found (depth + 1) items
  | _ => d.entries depth []

def lookAll (d : Detection) (depth : Nat) : List Datum → Detection
  | [] => d
  | item :: items => lookAll (d.look depth item) depth items

end

end Detection

/-- The dimensions common to all parts of ragged data. -/
def detectedShape (d : Datum) : List Nat :=
  let found := Detection.start.look 0 d
  found.lengths.take found.most

end WaveNotebook
