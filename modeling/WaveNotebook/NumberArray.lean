import WaveNotebook.Detection

/-!
# Arrays of numbers

Nested lists become an array if all items at the same depth have the same shape.
Truth values count as one and zero, a missing value as not a number, and a text
as the number it spells. The shape is looked at before any entry.
-/

namespace WaveNotebook

structure NumberArray where
  shape : List Nat
  cells : List Float

namespace NumberArray

mutual

/-- The dimensions of a datum, unless it is ragged. -/
def shapeOf : Datum → Option (List Nat)
  | .list items => commonShape items
  | .array shape _ => some shape
  | _ => some []

/-- The length of a list of data of one shape, in front of that shape. -/
def commonShape : List Datum → Option (List Nat)
  | [] => some [0]
  | [d] => (shapeOf d).map (1 :: ·)
  | d :: ds =>
    match shapeOf d, commonShape ds with
    | some shape, some (n :: rest) => if shape = rest then some ((n + 1) :: rest) else none
    | _, _ => none

end

/-- The dimensions of a datum; one that is ragged or nested too deep has none. -/
def dimensionsOf (d : Datum) : Except NumericFault (List Nat) :=
  let (fits, shape) := match shapeOf d with
    | some shape => (decide (shape.length ≤ Detection.mostDimensions), shape)
    | none => (false, detectedShape d)
  if fits then .ok shape
  else if shape.length < Detection.mostDimensions then .error (.shape (.ragged shape))
  else .error (.shape (.nested Detection.mostDimensions))

mutual

/-- The entries of a datum in order. -/
def cellsOf : Datum → Except NumericFault (List Float)
  | .null => .ok [Binary64.notANumber]
  | .list items => allCells items
  | .array _ cells => .ok cells
  | d => d.spelledNumber.map ([·])

def allCells : List Datum → Except NumericFault (List Float)
  | [] => .ok []
  | d :: ds => do
    let xs ← cellsOf d
    let ys ← allCells ds
    return xs ++ ys

end

def ofDatum (d : Datum) : Except NumericFault NumberArray := do
  return ⟨← dimensionsOf d, ← cellsOf d⟩

/-- The entries in consecutive rows of a given length. -/
def rowsOf (a : NumberArray) (rows cols : Nat) : List (List Float) :=
  let cells := a.cells.toArray
  (List.range rows).map fun i => (cells.extract (i * cols) ((i + 1) * cols)).toList

end NumberArray

end WaveNotebook
