import WaveNotebook.Number.Layout

/-!
# Numbers in a column

The numbers of an array are written with one width and with their points below
each other. Each one has the digits of its shortest numeral, but at most so many
after the point. If the magnitudes lie far apart, or far from one, all numbers
get an exponent.
-/

namespace WaveNotebook

/-- The parts of a written number: the digits before and after the point, the latter without
zeros at the end, and the exponent of a number that is written with one. -/
structure NumberParts where
  whole : List Char
  fraction : List Char
  exponent : List Char

/-- The layout that a column of numbers has in common: whether there are exponents and plus
signs, the characters before the point and behind it, and the digits of an exponent. -/
structure NumberColumn where
  exponential : Bool
  signed : Bool
  left : Nat
  right : Nat
  exponentWidth : Nat

namespace NumberColumn

/-- The greatest number of digits after a point. -/
def places : Nat := 8

/-- Magnitudes from here on are written with an exponent, and those below a bound. -/
def exponentialFrom : Float := 1e8

def exponentialBelow : Float := 1e-4

/-- The greatest quotient of two magnitudes that are written without exponents. -/
def greatestRatio : Float := 1000.0

/-- Digits without zeros at the end. -/
def withoutZeros (ds : List Char) : List Char :=
  (ds.reverse.dropWhile (· == '0')).reverse

/-- The sign of a number, with a plus sign if signs are always written. -/
def sign (signed negative : Bool) : List Char :=
  if negative then ['-'] else if signed then ['+'] else []

/-- The digits of a whole number, at least so many. -/
def digits (least n : Nat) : List Char :=
  let ds := Text.digitsOf n
  List.replicate (least - ds.length) '0' ++ ds

/-- The magnitude of a finite number as a whole number of negative powers of ten: exact as far as
the places go, else rounded. -/
def scaled (x : Float) : Nat × Nat :=
  let n := Numeral.shortest x
  if 0 ≤ n.exponent then (n.significand * Nat.pow 10 n.exponent.toNat, 0)
  else if n.exponent.natAbs ≤ places then (n.significand, n.exponent.natAbs)
  else (Binary64.divNearest (Binary64.units x * Nat.pow 10 places) Binary64.unitsPerOne, places)

/-- A finite number in positional notation. -/
def positional (signed : Bool) (x : Float) : NumberParts :=
  let (n, k) := scaled x
  let fraction := if k = 0 then [] else digits k (n % Nat.pow 10 k)
  let whole := Text.digitsOf (n / Nat.pow 10 k)
  ⟨sign signed (Binary64.isNegative x) ++ whole, withoutZeros fraction, []⟩

/-- The leading digits of the magnitude of a finite number, and its decimal exponent. -/
def leading (x : Float) : List Char × Int :=
  let n := Numeral.shortest x
  let ds := Text.digitsOf n.significand
  if n.significand = 0 then (['0'], 0)
  else
    let e := n.exponent + ds.length - 1
    if ds.length ≤ places + 1 then (ds, e)
    else
      let g := e - places
      let m := Binary64.divNearest (Binary64.units x * Nat.pow 10 (-g).toNat)
        (Binary64.unitsPerOne * Nat.pow 10 g.toNat)
      if m = Nat.pow 10 (places + 1) then (['1'], e + 1) else (Text.digitsOf m, e)

/-- A finite number with an exponent of at least so many digits. -/
def scientific (signed : Bool) (exponentWidth : Nat) (x : Float) : NumberParts :=
  let (ds, e) := leading x
  ⟨sign signed (Binary64.isNegative x) ++ ds.take 1, withoutZeros (ds.drop 1),
    'e' :: (if e < 0 then '-' else '+') :: digits exponentWidth e.natAbs⟩

/-- Whether finite numbers are written with exponents. -/
def needsExponent (xs : List Float) : Bool :=
  match (xs.map Float.abs).filter (0.0 < ·) with
  | [] => false
  | m :: ms =>
    let most := ms.foldl max m
    let least := ms.foldl min m
    exponentialFrom ≤ most || least < exponentialBelow || greatestRatio < most / least

def greatest (ns : List Nat) : Nat :=
  ns.foldl max 0

/-- How much room a number that is not finite takes; the sign of an infinity takes room in all
of them. -/
def wordWidth (signed : Bool) (xs : List Float) : Nat :=
  let infinite := xs.filter fun x => !Binary64.isFinite x && !Binary64.isNaN x
  if signed || infinite.any Binary64.isNegative then 4 else 3

/-- The layout of finite numbers. -/
def ofFinite (signed : Bool) (xs : List Float) : NumberColumn :=
  let exponential := needsExponent xs
  let parts := xs.map (if exponential then scientific signed numberStyle.exponentWidth
    else positional signed)
  ⟨exponential, signed, greatest (parts.map (·.whole.length)),
    greatest (parts.map (·.fraction.length)),
    greatest (parts.map (·.exponent.length)) - 2⟩

/-- The characters behind the point. -/
def behind (c : NumberColumn) : Nat :=
  if c.exponential then c.right + c.exponentWidth + 2 else c.right

/-- The layout of numbers. -/
def ofNumbers (signed : Bool) (xs : List Float) : NumberColumn :=
  let c := ofFinite signed (xs.filter Binary64.isFinite)
  if xs.all Binary64.isFinite then c
  else { c with left := max c.left (wordWidth signed xs - (c.behind + 1)) }

def padLeft (width : Nat) (s : List Char) : List Char :=
  List.replicate (width - s.length) ' ' ++ s

/-- The text of a number in a column. -/
def text (c : NumberColumn) (x : Float) : List Char :=
  if !Binary64.isFinite x then
    let sign := if Binary64.isNaN x then sign c.signed false
      else sign c.signed (Binary64.isNegative x)
    let word := if Binary64.isNaN x then ['n', 'a', 'n'] else ['i', 'n', 'f']
    padLeft (c.left + c.behind + 1) (sign ++ word)
  else if c.exponential then
    let p := scientific c.signed c.exponentWidth x
    padLeft c.left p.whole ++ '.' :: p.fraction ++
      List.replicate (c.right - p.fraction.length) '0' ++ p.exponent
  else
    let p := positional c.signed x
    padLeft c.left p.whole ++ '.' :: p.fraction ++
      List.replicate (c.right - p.fraction.length) ' '

end NumberColumn

end WaveNotebook
