import WaveNotebook.Signal.Samples

/-!
# Kernels on arrays of any dimensions

Extrema, envelopes, modes and correlations are meant for a single row of samples.
On an array of other dimensions extrema are looked for along the first one and
counted in the order of the entries; an envelope needs a row as soon as there are
two of them, and a correlation fails where its products do not fit.
-/

namespace WaveNotebook

namespace NumberArray

/-- The numbers that a kernel works on. -/
def ofSamples (d : Datum) : Except Fault NumberArray :=
  (ofDatum d).mapError Fault.numeric

def ofRow (xs : List Float) : NumberArray :=
  ⟨[xs.length], xs⟩

/-- Whether there is a single dimension, or a single number without one. -/
def isFlat (a : NumberArray) : Bool :=
  a.shape.length ≤ 1

/-- How many entries belong to one place of the first dimension. -/
def stride (a : NumberArray) : Nat :=
  ArrayText.count a.shape.tail

end NumberArray

namespace Sifting

/-- The positions of the extrema along the first dimension. -/
def positionsAlong (kind : Extremum) (a : NumberArray) : List Nat :=
  let cells := a.cells.toArray
  let stride := a.stride
  (List.range (cells.size - 2 * stride)).filterMap fun p =>
    match cells[p]?, cells[p + stride]?, cells[p + 2 * stride]? with
    | some x, some y, some z => if kind.holds x y z then some (p + 1) else none
    | _, _, _ => none

/-- The positions of the extrema of a named kind in an array. -/
def positionsIn (kind : Datum) (a : NumberArray) : Except Fault (List Nat) :=
  if a.isFlat then positions kind a.cells
  else if a.cells.length < 3 then .ok []
  else do return positionsAlong (← Extremum.ofDatum kind) a

/-- Why an array with more than one dimension has no envelope. -/
def envelopeFault (kind : Extremum) (a : NumberArray) : Fault :=
  match positionsAlong kind a with
  | p :: ps =>
    let rows := a.shape.headD 0
    if ps.isEmpty then .algorithm (.extrema ⟨kind, 1⟩)
    else if rows ≤ p then .numeric (.lookup (.arrayPlace p rows))
    else if a.stride = 1 then
      .numeric (.shape (.values ((ps.length + 1) :: a.shape.tail) [ps.length + 1]))
    else .numeric (.shape (.apart [a.cells.length] a.shape.tail))
  | [] => .algorithm (.extrema ⟨kind, 0⟩)

/-- The envelope through the extrema of a named kind in an array. -/
def envelopeIn (kind : Datum) (a : NumberArray) : Except Fault (List Float) :=
  if a.isFlat then envelopeOf kind a.cells
  else
    match Extremum.ofDatum kind with
    | .ok k => .error (envelopeFault k a)
    | .error fault =>
      if a.cells.length < 3 then .error (.algorithm (.unknownExtrema kind.plain))
      else .error fault

/-- A single mode of an array, with the notice that sifting leaves if it hits the cap. -/
def modeIn (a : NumberArray) (cap : Int) : List Notice × Except Fault NumberArray :=
  if cap ≤ 0 then ([⟨cap⟩], .ok a)
  else if a.isFlat then
    let (notices, mode) := modeOf a.cells cap
    (notices, mode.map .ofRow)
  else ([], .error (envelopeFault .max a))

/-- A fault of the first mode. -/
def firstModeFault : Fault → Fault
  | .algorithm (.extrema shortfall) => .algorithm (.mode 1 shortfall)
  | fault => fault

/-- The modes of an array, and the notices that sifting has left. -/
def modesIn (a : NumberArray) (count cap : Int) :
    List Notice × Except Fault (List (List Float)) :=
  if a.isFlat || decide (count < 1) || decide (cap < 1) then Signal.modesOf a.cells count cap
  else ([], .error (firstModeFault (envelopeFault .max a)))

end Sifting

namespace Correlation

/-- Why two arrays have no product of a single number, if they have none. The last dimension of
the first one is summed up with the last but one of the second, or with its only one. -/
def productFault? (left right : List Nat) : Option NumericFault :=
  let i := left.length - 1
  let j := right.length - 2
  if left.getD i 0 ≠ right.getD j 0 then some (.shape (.alignment left right i j))
  else
    if (left.dropLast ++ right.eraseIdx j).isEmpty then none else some (.type .dimensioned)

/-- The dimensions of what an array holds around a place of its first dimension, `h` places to
both sides; a place behind the end holds nothing. -/
def around (shape : List Nat) (place h : Nat) : List Nat :=
  match shape with
  | [] => []
  | n :: rest => (if place < n then 2 * h + 1 else 0) :: rest

/-- Why the edges of an array cannot be correlated, if they cannot: the first position decides,
and the second one if there are three. -/
def edgeFault? (data kernel : List Nat) : Option NumericFault :=
  let centre := ArrayText.count kernel / 2
  let fault (t h : Nat) := productFault? (around data t h) (around kernel centre h)
  (fault 0 0).or (if 3 ≤ ArrayText.count data then fault 1 1 else none)

/-- Why arrays cannot be correlated because of their dimensions, if they cannot. -/
def dimensionFault? (data kernel : List Nat) : Option NumericFault :=
  let interior := 2 * reach (ArrayText.count kernel) < ArrayText.count data
  if data.length = 1 ∧ kernel.length = 1 then none
  else if kernel.isEmpty then some (.lookup (.dimensions 0 1))
  else if interior then some (.shape (if data.isEmpty then .tooShallow else .tooDeep))
  else if data.isEmpty then some (.lookup (.dimensions 0 1))
  else edgeFault? data kernel

/-- The correlation of an array with a kernel. -/
def ofArrays (data kernel : NumberArray) : Except Fault (List Float) :=
  if data.cells.isEmpty then .ok []
  else
    match dimensionFault? data.shape kernel.shape with
    | some fault => .error (.numeric fault)
    | none => ofKernel data.cells kernel.cells

end Correlation

end WaveNotebook
