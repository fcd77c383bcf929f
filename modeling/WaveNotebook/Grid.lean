import WaveNotebook.Datum
import WaveNotebook.Kernel.Scalar
import WaveNotebook.NumberArray

/-!
# Matrices

A grid is a rectangle of numbers. Sums, products and the transpose are new grids;
only `set` yields a grid in place of its receiver. A grid with an entry that is
not a finite number is refused, at construction as malformed and after an
operation as an overflow.
-/

namespace WaveNotebook

structure Grid (α : Type) where
  rows : Nat
  cols : Nat
  cells : Vector (Vector α cols) rows

namespace Grid

variable {α : Type}

def entry (g : Grid α) (i : Fin g.rows) (j : Fin g.cols) : α :=
  g.cells[i][j]

def ofFn (rows cols : Nat) (f : Fin rows → Fin cols → α) : Grid α :=
  ⟨rows, cols, Vector.ofFn fun i => Vector.ofFn fun j => f i j⟩

def toRows (g : Grid α) : List (List α) :=
  g.cells.toList.map (·.toList)

def row? (cols : Nat) (xs : List α) : Option (Vector α cols) :=
  if h : xs.length = cols then some ⟨xs.toArray, by simpa using h⟩ else none

/-- The grid of the given rows, which must have equal lengths. -/
def ofRows? (rows : List (List α)) : Option (Grid α) :=
  let cols := (rows.head?.getD []).length
  (rows.mapM (row? cols)).map fun vs => ⟨vs.length, cols, ⟨vs.toArray, by simp⟩⟩

/-- The grid with one entry, zero. -/
def zero [NatCast α] : Grid α :=
  ofFn 1 1 fun _ _ => ((0 : Nat) : α)

def allFinite [FiniteTest α] (g : Grid α) : Bool :=
  g.cells.all fun row => row.all isFinite

/-- A grid with at least one entry, all of them finite. -/
def validate [FiniteTest α] (g : Grid α) : Except Fault (Grid α) :=
  if g.rows = 0 ∨ g.cols = 0 then .error (.grid (.tooSmall [g.rows, g.cols]))
  else if g.allFinite then .ok g
  else .error (.grid .nonFinite)

def ofRows [FiniteTest α] (rows : List (List α)) : Except Fault (Grid α) :=
  match ofRows? rows with
  | some g => g.validate
  | none => .error (.grid .ragged)

/-- The result of an operation, unless it has left the finite numbers. -/
def checked [FiniteTest α] (operation : GridOperation) (g : Grid α) : Except Fault (Grid α) :=
  if g.allFinite then .ok g else .error (.algorithm (.gridOverflow operation))

def map (g : Grid α) (f : α → α) : Grid α :=
  ofFn g.rows g.cols fun i j => f (g.entry i j)

def transpose (g : Grid α) : Grid α :=
  ofFn g.cols g.rows fun i j => g.entry j i

section

variable [FiniteTest α]

def scale [Mul α] (g : Grid α) (factor : α) : Except Fault (Grid α) :=
  checked .scaling (g.map (· * factor))

def add [Add α] (a b : Grid α) : Except Fault (Grid α) :=
  if h : a.rows = b.rows ∧ a.cols = b.cols then
    checked .addition (ofFn a.rows a.cols fun i j =>
      a.entry i j + b.entry (i.cast h.1) (j.cast h.2))
  else .error (.grid (.sumShape a.rows a.cols b.rows b.cols))

def multiply [NatCast α] [Add α] [Mul α] (a b : Grid α) : Except Fault (Grid α) :=
  if h : a.cols = b.rows then
    checked .multiplication (ofFn a.rows b.cols fun i j =>
      sum ((List.finRange a.cols).map fun k => a.entry i k * b.entry (k.cast h) j))
  else .error (.grid (.productShape a.rows a.cols b.rows b.cols))

end

/-- The place that two integers stand for. -/
def index (g : Grid α) (row col : Int) : Except Fault (Fin g.rows × Fin g.cols) :=
  if h : 0 ≤ row ∧ row < g.rows ∧ 0 ≤ col ∧ col < g.cols then
    .ok (⟨row.toNat, by omega⟩, ⟨col.toNat, by omega⟩)
  else .error (.grid (.indexRange row col g.rows g.cols))

/-- The place that two loosely typed indices stand for. -/
def indexOf (g : Grid α) (row col : Datum) : Except Fault (Fin g.rows × Fin g.cols) := do
  let r ← row.integer?.mapError Fault.numeric
  let c ← col.integer?.mapError Fault.numeric
  match r, c with
  | some r, some c => g.index r c
  | _, _ => .error (.grid (.indexForm row.plain col.plain))

def get (g : Grid α) (row col : Datum) : Except Fault α := do
  let (i, j) ← g.indexOf row col
  return g.entry i j

/-- The grid with one entry replaced. -/
def replace (g : Grid α) (i : Fin g.rows) (j : Fin g.cols) (value : α) : Grid α :=
  { g with cells := g.cells.set i (g.cells[i].set j value) }

/-- An integer can be tested as an entry if it fits in 64 bits, with a sign or without. -/
def testable : Datum → Except Fault Unit
  | .integer n =>
    if -(Nat.pow 2 63 : Int) ≤ n ∧ n < (Nat.pow 2 64 : Int) then .ok ()
    else .error (.numeric (.type (.unsupported "isfinite")))
  | _ => .ok ()

/-- The entry that a datum can be. -/
def entryOf (value : Datum) : Except Fault Float := do
  testable value
  match ← value.finite?.mapError Fault.numeric with
  | some x => return x
  | none => .error (.grid .entry)

def set (g : Grid Float) (row col value : Datum) : Except Fault (Grid Float) := do
  let (i, j) ← g.indexOf row col
  let x ← entryOf value
  return g.replace i j x

/-- Whether a datum can be a row: a list or an array. -/
def isRow : Datum → Bool
  | .list _ | .array .. => true
  | _ => false

/-- The length of a row; an array without dimensions has none. -/
def rowLength : Datum → Except Fault Nat
  | .list items => .ok items.length
  | .array (n :: _) _ => .ok n
  | _ => .error (.numeric (.type .unsized))

/-- Whether all rows have a given length; a row behind one of another length is not looked at. -/
def haveLength (length : Nat) : List Datum → Except Fault Bool
  | [] => .ok true
  | row :: rows => do
    if (← rowLength row) = length then haveLength length rows else return false

/-- The grid of an array of numbers with any number of dimensions. -/
def ofArray (a : NumberArray) : Except Fault (Grid Float) :=
  match a.shape with
  | [rows, cols] =>
    if rows = 0 ∨ cols = 0 then .error (.grid (.tooSmall a.shape))
    else ofRows (a.rowsOf rows cols)
  | shape => .error (.grid (.tooSmall shape))

/-- The grid that a datum is: a two-dimensional array, or a non-empty list of rows. -/
def ofDatum (d : Datum) : Except Fault (Grid Float) := do
  match d with
  | .array shape cells =>
    if shape.length = 2 then ofArray ⟨shape, cells⟩ else .error (.grid (.dimensions shape))
  | .list [] => .error (.grid .notGrid)
  | .list (first :: others) =>
    if !(first :: others).all isRow then .error (.grid .notRows)
    else if !(← haveLength (← rowLength first) others) then .error (.grid .ragged)
    else
      match NumberArray.ofDatum d with
      | .ok a => ofArray a
      | .error fault => .error (.gridEntries fault)
  | _ => .error (.grid .notGrid)

/-- The entries of a grid as lists in a list. -/
def nested (g : Grid Float) : Datum :=
  .list (g.toRows.map fun row => .list (row.map .number))

/-- Entries are compared as numbers, so that the two zeros are equal. -/
def beq (a b : Grid Float) : Bool :=
  a.rows == b.rows && a.cols == b.cols && a.toRows == b.toRows

/-- A line with the shape, then a line for each row with tabs between the entries. -/
def text (g : Grid Float) : List Char :=
  let head := ("Matrix[" ++ sizeText g.rows g.cols ++ "]").toList
  let line (row : List Float) := ['\t'].intercalate (row.map valueText)
  ['\n'].intercalate (head :: g.toRows.map line)

/-- The written form of a grid in messages. -/
def shown (g : Grid α) : String :=
  "Matrix(shape=" ++ sizeText g.rows g.cols ++ ")"

end Grid

end WaveNotebook
