import WaveNotebook.Number.Complex
import WaveNotebook.Signal.Analysis

/-!
# Kernels on loosely typed samples

The transform and the statistics take a single row of numbers; data of another
shape are refused. A signal of fewer than three samples has no extrema of any
kind, and so the name of the kind is not looked at.
-/

namespace WaveNotebook

/-- The entries of an array with one dimension. -/
def NumberArray.rowOr (a : NumberArray) (fault : SignalFault) : Except Fault (List Float) :=
  if a.shape.length = 1 then .ok a.cells else .error (.signal fault)

namespace Fourier

/-- The complex number that a text spells. -/
def ofText (s : String) : Except NumericFault (Cartesian Float) :=
  match withoutGrouping s.toList with
  | none => .error (.complexGrouping (Datum.quotedText s))
  | some cs =>
    match wholeComplex? cs with
    | some (x, y) => .ok ⟨x, y⟩
    | none => .error .complexText

/-- The complex number of an entry. Among texts every entry is taken as a text. -/
def ofEntry (amongTexts : Bool) : Datum → Except NumericFault (Cartesian Float)
  | .null => .ok ⟨Binary64.notANumber, Binary64.notANumber⟩
  | .bool b => if amongTexts then .error .complexText else .ok ⟨if b then 1.0 else 0.0, 0.0⟩
  | .number x => .ok ⟨x, 0.0⟩
  | .integer n => (Datum.integer n).toFloat?.map fun x => ⟨x.getD 0.0, 0.0⟩
  | .text s => ofText s
  | d => .error (.type (.notReal d.fullTypeName))

def isTextEntry : Datum → Bool
  | .text _ => true
  | _ => false

/-- Entries that keep an array with texts from being one of texts. -/
def isLooseEntry : Datum → Bool
  | .null | .record _ | .object .. => true
  | _ => false

/-- The entries of a row. -/
def rowEntries : Datum → List Datum
  | .list items => items.flatMap fun d =>
    match d with
    | .array _ cells => cells.map .number
    | d => [d]
  | .array _ cells => cells.map .number
  | d => [d]

/-- The samples that a transform takes. Their number is looked at before they are. -/
def samplesOf (d : Datum) : Except Fault (List (Cartesian Float)) :=
  match NumberArray.dimensionsOf d with
  | .error fault => .error (.numeric fault)
  | .ok [n] =>
    if isPowerOfTwo n then
      let entries := rowEntries d
      let amongTexts := entries.any isTextEntry && !entries.any isLooseEntry
      match (leaves entries).mapM (ofEntry amongTexts) with
      | .error fault => .error (.numeric fault)
      | .ok _ => (entries.mapM (ofEntry amongTexts)).mapError Fault.numeric
    else .error (.signal (.transformLength n))
  | .ok shape => .error (.signal (.transformDimensions shape))

/-- The common dimensions of two arrays, of which the missing ones and those of length one
stretch; the last one comes first. -/
def commonShape : List Nat → List Nat → Option (List Nat)
  | [], ns => some ns
  | ms, [] => some ms
  | m :: ms, n :: ns =>
    if m = n ∨ n = 1 then (commonShape ms ns).map (m :: ·)
    else if m = 1 then (commonShape ms ns).map (n :: ·)
    else none

/-- A row of so many entries; a single entry is repeated. -/
def stretched (n : Nat) : List Float → List Float
  | [x] => List.replicate n x
  | xs => xs

/-- The sum of a real number and the imaginary unit times another one. -/
def ofParts (x y : Float) : Cartesian Float :=
  ⟨x + (0.0 * y - 0.0), 0.0 + (0.0 + y)⟩

/-- The samples with given real and imaginary parts. -/
def samplesOfParts (re im : Datum) : Except Fault (List (Cartesian Float)) := do
  let re ← (NumberArray.ofDatum re).mapError Fault.numeric
  let im ← (NumberArray.ofDatum im).mapError Fault.numeric
  match (commonShape re.shape.reverse im.shape.reverse).map List.reverse with
  | none => .error (.numeric (.shape (.apart re.shape im.shape)))
  | some [n] => return List.zipWith ofParts (stretched n re.cells) (stretched n im.cells)
  | some shape => .error (.signal (.transformDimensions shape))

end Fourier

namespace Statistic

/-- The samples that a statistic takes. -/
def samplesOf (d : Datum) : Except Fault (List Float) := do
  let a ← (NumberArray.ofDatum d).mapError Fault.numeric
  if a.cells.isEmpty then .error (.signal .statisticEmpty)
  else a.rowOr (.statisticDimensions a.shape)

def ofDatum (s : Statistic) (d : Datum) : Except Fault Float := do
  s.measure (← samplesOf d)

end Statistic

def Extremum.ofDatum (d : Datum) : Except Fault Extremum := do
  match (← d.comparedText.mapError Fault.numeric).bind ofName? with
  | some kind => return kind
  | none => .error (.numeric .extremum)

namespace Sifting

/-- The positions of the extrema of a named kind. -/
def positions (kind : Datum) (samples : List Float) : Except Fault (List Nat) :=
  if samples.length < 3 then .ok []
  else do return (extrema (← Extremum.ofDatum kind) samples).map (·.1)

section

variable {α : Type} [NatCast α] [Add α] [Sub α] [Mul α] [Div α] [LT α] [DecidableLT α]

/-- The envelope through the extrema of a named kind. -/
def envelopeOf (kind : Datum) (samples : List α) : Except Fault (List α) :=
  match Extremum.ofDatum kind with
  | .ok k => (envelope k samples).mapError fun shortfall => .algorithm (.extrema shortfall)
  | .error fault =>
    if samples.length < 3 then .error (.algorithm (.unknownExtrema kind.plain)) else .error fault

/-- A single mode, with the notice that sifting leaves if it hits the cap. -/
def modeOf [OfScientific α] [Elementary α] (samples : List α) (cap : Int) :
    List Notice × Except Fault (List α) :=
  match sift cap.toNat samples with
  | .ok s => (if s.capped then [⟨cap⟩] else [], .ok s.mode)
  | .error shortfall => ([], .error (.algorithm (.extrema shortfall)))

end

end Sifting

end WaveNotebook
