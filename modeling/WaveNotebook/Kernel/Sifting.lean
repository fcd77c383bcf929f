import WaveNotebook.Fault
import WaveNotebook.Kernel.Scalar

/-!
# Empirical modes

The envelope of a signal passes through its local extrema of one kind; between
them it is the mean of their values, weighted by the inverse squares of their
distances. Sifting subtracts the mean of the upper and the lower envelope until
a step changes little, or a number of steps is reached, which is the cap. A
decomposition sifts out one mode after the other, each from what the modes
before it have left.
-/

namespace WaveNotebook

namespace Extremum

def ofName? (s : String) : Option Extremum :=
  [max, min].find? (·.name == s)

/-- Whether the middle one of three values is a strict extremum. -/
def holds {α : Type} [LT α] [DecidableLT α] (kind : Extremum) (before middle after : α) : Bool :=
  match kind with
  | max => before < middle && after < middle
  | min => middle < before && middle < after

end Extremum

namespace Sifting

section

variable {α : Type} [LT α] [DecidableLT α]

/-- The strict extrema between the first and the last value, with their positions; the list
starts at a given position. -/
def extremaFrom (kind : Extremum) (start : Nat) : List α → List (Nat × α)
  | a :: b :: c :: xs =>
    let rest := extremaFrom kind (start + 1) (b :: c :: xs)
    if kind.holds a b c then (start + 1, b) :: rest else rest
  | _ => []

def extrema (kind : Extremum) (xs : List α) : List (Nat × α) :=
  extremaFrom kind 0 xs

end

section

variable {α : Type} [NatCast α] [Add α] [Sub α] [Mul α] [Div α]

/-- The square of the distance of two positions. One stands in for that of a position from
itself. -/
def squaredDistance (p i : Nat) : α :=
  if p = i then ((1 : Nat) : α)
  else
    let d := (p : α) - (i : α)
    d * d

/-- The weight at one position of an extremum at another one. It has none at its own. -/
def weight (p i : Nat) : α :=
  let reciprocal := ((1 : Nat) : α) / squaredDistance p i
  if p = i then ((0 : Nat) : α) else reciprocal

/-- The sum of the weighted values and that of the weights, one extremum at a time. -/
def weigh (p : Nat) (extrema : List (Nat × α)) : α × α :=
  extrema.foldl
    (fun acc e => (acc.1 + weight p e.1 * e.2, acc.2 + weight p e.1))
    (((0 : Nat) : α), ((0 : Nat) : α))

/-- The envelope at a position: the weighted mean, unless an extremum is there. -/
def envelopeAt (extrema : List (Nat × α)) (p : Nat) : α :=
  let sums := weigh p extrema
  (extrema.lookup p).getD (sums.1 / sums.2)

def envelope [LT α] [DecidableLT α] (kind : Extremum) (xs : List α) :
    Except Shortfall (List α) :=
  let es := extrema kind xs
  if es.length < 2 then .error ⟨kind, es.length⟩
  else .ok ((List.range xs.length).map (envelopeAt es))

/-- The mean of the upper and the lower envelope. -/
def meanEnvelope [LT α] [DecidableLT α] (xs : List α) : Except Shortfall (List α) := do
  let upper ← envelope .max xs
  let lower ← envelope .min xs
  return List.zipWith (fun a b => (a + b) / ((2 : Nat) : α)) upper lower

end

/-- Entry by entry. -/
def minus {α : Type} [Sub α] (xs ys : List α) : List α :=
  List.zipWith (· - ·) xs ys

/-- A mode, and whether the cap ended the sifting. -/
structure Sifted (α : Type) where
  mode : List α
  capped : Bool

section

variable {α : Type} [NatCast α] [Add α] [Sub α] [Mul α] [Div α] [LT α] [DecidableLT α]

/-- One step of sifting. -/
def step (xs : List α) : Except Shortfall (List α) :=
  (minus xs ·) <$> meanEnvelope xs

variable [OfScientific α] [Elementary α]

def threshold : α := 0.05

/-- Whether a step has changed a signal by less than the threshold. -/
def settled (before after : List α) : Bool :=
  let change := minus after before
  Elementary.sqrt (dot change change) < (threshold : α)

/-- Sifts at most a given number of times. -/
def sift : Nat → List α → Except Shortfall (Sifted α)
  | 0, xs => .ok ⟨xs, true⟩
  | cap + 1, xs => do
    let next ← step xs
    if settled xs next then return ⟨next, false⟩ else sift cap next

/-- What a decomposition has found: the modes, and why it stopped early if it did. -/
structure Decomposition (α : Type) where
  modes : List (Sifted α)
  failure : Option Shortfall

/-- Sifts out a number of modes; what a mode leaves is the input of the next one. -/
def decompose (cap : Nat) : Nat → List α → Decomposition α
  | 0, _ => ⟨[], none⟩
  | count + 1, xs =>
    match sift cap xs with
    | .error shortfall => ⟨[], some shortfall⟩
    | .ok s =>
      let rest := decompose cap count (minus xs s.mode)
      ⟨s :: rest.modes, rest.failure⟩

end

end Sifting

end WaveNotebook
