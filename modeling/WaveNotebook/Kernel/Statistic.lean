import WaveNotebook.Fault
import WaveNotebook.Kernel.Scalar

/-!
# Statistics of a signal

Each statistic is one number for a whole signal. The crest factor needs a signal
that is not zero throughout, and the kurtosis one that is not constant. On
numbers of limited range the square of a variance can overflow or vanish, which
is a fault of arithmetic and none of the statistic.
-/

namespace WaveNotebook

inductive Statistic
  | rms | peak | crest | kurtosis
  deriving DecidableEq, Repr

namespace Statistic

def all : List Statistic := [rms, peak, crest, kurtosis]

def name : Statistic → String
  | rms => "rms"
  | peak => "peak"
  | crest => "crest"
  | kurtosis => "kurtosis"

def ofName? (s : String) : Option Statistic :=
  all.find? (·.name == s)

variable {α : Type} [NatCast α] [Add α] [Sub α] [Mul α] [Div α] [Neg α] [LT α] [DecidableLT α]
  [BEq α] [Elementary α] [FiniteTest α]

/-- The square root of the mean square. -/
def rmsOf (xs : List α) : α :=
  Elementary.sqrt (mean (xs.map fun x => x * x))

/-- The greater one of two values; a value that is not equal to itself counts as the greatest. -/
def greater (x y : α) : α :=
  if x < y || !(y == y) then y else x

/-- The greatest magnitude. -/
def peakOf (xs : List α) : α :=
  (xs.map magnitude).foldl greater ((0 : Nat) : α)

def crestOf (xs : List α) : Except Fault α :=
  let r := rmsOf xs
  if r == ((0 : Nat) : α) then .error (.algorithm .zeroPower) else .ok (peakOf xs / r)

/-- The fourth central moment over the square of the second. -/
def kurtosisOf (xs : List α) : Except Fault α :=
  let m := mean xs
  let centred := xs.map (· - m)
  let variance := mean (centred.map fun c => c * c)
  let fourth := mean (centred.map Elementary.fourthPower)
  let square := variance * variance
  if variance == ((0 : Nat) : α) then .error (.algorithm .constantSignal)
  else if isFinite variance && !isFinite square then .error (.numeric .hugeSquare)
  else if square == ((0 : Nat) : α) then .error (.numeric .zeroDivision)
  else .ok (fourth / square)

/-- A statistic of a signal with at least one sample. -/
def measure (s : Statistic) (xs : List α) : Except Fault α :=
  if xs.isEmpty then .error (.signal .statisticEmpty)
  else
    match s with
    | rms => .ok (rmsOf xs)
    | peak => .ok (peakOf xs)
    | crest => crestOf xs
    | kurtosis => kurtosisOf xs

end Statistic

end WaveNotebook
