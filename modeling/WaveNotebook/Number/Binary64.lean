/-!
# Double precision numbers as integers

The magnitude of a finite double is a whole number of units of `2 ^ -1074`. The
63 low bits of its pattern, its code, grow with the magnitude: the code of `m`
units at the binary exponent `p` is `p * 2 ^ 52 + m`, for normal and subnormal
numbers alike, and a significand that rounds up to `2 ^ 53` carries into the
exponent. So one formula rounds a quotient of naturals to the nearest double,
ties to the even code, and a quotient that is a double keeps its value.
-/

namespace WaveNotebook.Binary64

/-- The number of fraction patterns under one exponent. -/
def fractionCount : Nat := Nat.pow 2 52

/-- The bit of the sign. -/
def signPlace : Nat := Nat.pow 2 63

/-- The code of infinity; greater codes are not numbers. -/
def infinityCode : Nat := 2047 * fractionCount

/-- How many units make one. -/
def unitsPerOne : Nat := Nat.pow 2 1074

def code (x : Float) : Nat :=
  x.toBits.toNat % signPlace

def isNegative (x : Float) : Bool :=
  signPlace ≤ x.toBits.toNat

def isFinite (x : Float) : Bool :=
  code x < infinityCode

def isNaN (x : Float) : Bool :=
  infinityCode < code x

/-- The units of the finite magnitude with a given code. -/
def unitsOfCode (c : Nat) : Nat :=
  if c < fractionCount then c
  else (fractionCount + c % fractionCount) * Nat.pow 2 (c / fractionCount - 1)

def units (x : Float) : Nat :=
  unitsOfCode (code x)

/-- The quotient to the nearest whole number, a tie to the even one. -/
def divNearest (num den : Nat) : Nat :=
  let q := num / den
  let r := num % den
  if 2 * r < den then q else if den < 2 * r then q + 1 else q + q % 2

/-- The code of the double nearest to a quotient; too large a quotient is infinite. -/
def nearestCode (num den : Nat) : Nat :=
  let scaled := num * unitsPerOne
  let p := (scaled / den).log2 - 52
  min (p * fractionCount + divNearest scaled (den * Nat.pow 2 p)) infinityCode

def ofCode (negative : Bool) (c : Nat) : Float :=
  Float.ofBits (UInt64.ofNat (if negative then signPlace + c else c))

/-- The double nearest to a signed quotient. -/
def ofRatio (negative : Bool) (num den : Nat) : Float :=
  ofCode negative (nearestCode num den)

def infinity : Float := ofCode false infinityCode

def notANumber : Float := ofCode false (infinityCode + fractionCount / 2)

/-- The double nearest to the fourth power of a number. -/
def fourthPower (x : Float) : Float :=
  if isFinite x then ofRatio false (Nat.pow (units x) 4) (Nat.pow unitsPerOne 4) else x * x

/-- The greatest integer that is not above a finite number. -/
def floor (x : Float) : Int :=
  if isNegative x then -(Int.ofNat ((units x + (unitsPerOne - 1)) / unitsPerOne))
  else Int.ofNat (units x / unitsPerOne)

def ceil (x : Float) : Int :=
  if isNegative x then -(Int.ofNat (units x / unitsPerOne))
  else Int.ofNat ((units x + (unitsPerOne - 1)) / unitsPerOne)

/-- A finite number without its fraction. -/
def truncate (x : Float) : Int :=
  let n := Int.ofNat (units x / unitsPerOne)
  if isNegative x then -n else n

def isInteger (x : Float) : Bool :=
  isFinite x && units x % unitsPerOne == 0

/-- The double nearest to an integer, unless it lies beyond the finite ones. -/
def ofInt? (n : Int) : Option Float :=
  let c := nearestCode n.natAbs 1
  if c < infinityCode then some (ofCode (n < 0) c) else none

end WaveNotebook.Binary64
