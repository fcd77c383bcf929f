import WaveNotebook.Number.Binary64

/-!
# Decimal numerals

A numeral is a signed whole significand with a power of ten. Reading takes the
nearest double. `shortest` goes the other way: it walks from coarse to fine
powers of ten and stops at the first grid on which one of the two neighbours of
the number reads back, so that no numeral with fewer digits does; of two such
neighbours it takes the nearer one.
-/

namespace WaveNotebook

/-- The number `± significand * 10 ^ exponent`. -/
structure Numeral where
  negative : Bool
  significand : Nat
  exponent : Int

namespace Numeral

/-- The magnitude as a quotient of naturals. -/
def ratio (n : Numeral) : Nat × Nat :=
  if 0 ≤ n.exponent then (n.significand * Nat.pow 10 n.exponent.toNat, 1)
  else (n.significand, Nat.pow 10 (-n.exponent).toNat)

/-- The code of the nearest magnitude. Exponents that leave no doubt are decided
without the power of ten. -/
def magnitudeCode (n : Numeral) : Nat :=
  if n.significand = 0 then 0
  else if 310 < n.exponent then Binary64.infinityCode
  else if n.exponent + n.significand.log2 < -330 then 0
  else Binary64.nearestCode n.ratio.1 n.ratio.2

def toFloat (n : Numeral) : Float :=
  Binary64.ofCode n.negative n.magnitudeCode

/-- The numeral with every digit of a finite double. -/
def exact (x : Float) : Numeral :=
  ⟨Binary64.isNegative x, Binary64.units x * Nat.pow 5 1074, -1074⟩

/-- The two neighbours of a finite double among the multiples of `10 ^ g`, the nearer one
first; on a tie the even one. -/
def neighbours (x : Float) (g : Int) : List Numeral :=
  let sign := Binary64.isNegative x
  let num := Binary64.units x * Nat.pow 10 (-g).toNat
  let den := Binary64.unitsPerOne * Nat.pow 10 g.toNat
  let below : Numeral := ⟨sign, num / den, g⟩
  let above : Numeral := ⟨sign, num / den + 1, g⟩
  let r := num % den
  if 2 * r < den ∨ (2 * r = den ∧ num / den % 2 = 0) then [below, above] else [above, below]

/-- The first neighbour that reads back on the grids from `10 ^ g` downwards. -/
def shortestFrom (x : Float) (g : Int) : Nat → Option Numeral
  | 0 => none
  | steps + 1 =>
    match (neighbours x g).find? fun n => n.magnitudeCode == Binary64.code x with
    | some n => some n
    | none => shortestFrom x (g - 1) steps

/-- A power of ten above a finite double that is not zero. -/
def startExponent (x : Float) : Int :=
  ((Binary64.units x).log2 - 1073 : Int) * 30103 / 100000 + 1

/-- The numeral with the fewest digits that reads back as a given finite double. -/
def shortest (x : Float) : Numeral :=
  if Binary64.units x = 0 then ⟨Binary64.isNegative x, 0, 0⟩
  else (shortestFrom x (startExponent x) 25).getD (exact x)

end Numeral

end WaveNotebook
