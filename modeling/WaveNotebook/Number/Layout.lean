import WaveNotebook.Number.Decimal
import WaveNotebook.Text.Digit

/-!
# Numbers as text

`numberText` writes the shortest numeral of a double: in positional notation
while the decimal exponent lies in the range of `NumberStyle`, with an exponent
otherwise, and always with a fraction or an exponent, so that the text of a
number differs from that of an integer. `valueText` is the notebook's own form,
in which an integral number has all its digits and no fraction.
-/

namespace WaveNotebook

/-- How a numeral is laid out: the decimal exponents with positional notation, and the least
number of digits of a written exponent. -/
structure NumberStyle where
  positionalFrom : Int
  positionalBelow : Int
  exponentWidth : Nat

/-- Positional from `1e-4` up to `1e16`, and exponents of two digits or more. -/
def numberStyle : NumberStyle := ⟨-4, 16, 2⟩

def signText (negative : Bool) : List Char :=
  if negative then ['-'] else []

def integerText (n : Int) : List Char :=
  signText (n < 0) ++ Text.digitsOf n.natAbs

namespace NumberStyle

def exponentText (style : NumberStyle) (e : Int) : List Char :=
  let ds := Text.digitsOf e.natAbs
  'e' :: (if e < 0 then '-' else '+') :: List.replicate (style.exponentWidth - ds.length) '0' ++ ds

/-- A significand's digits with the point after the first `k`, for any integer `k`. -/
def positional (ds : List Char) (k : Int) : List Char :=
  if k ≤ 0 then ['0', '.'] ++ List.replicate (-k).toNat '0' ++ ds
  else if ds.length ≤ k.toNat then
    ds ++ List.replicate (k.toNat - ds.length) '0' ++ ['.', '0']
  else ds.take k.toNat ++ '.' :: ds.drop k.toNat

def scientific (style : NumberStyle) (ds : List Char) (e : Int) : List Char :=
  ds.take 1 ++ (if ds.length ≤ 1 then [] else '.' :: ds.drop 1) ++ style.exponentText e

def text (style : NumberStyle) (n : Numeral) : List Char :=
  let ds := Text.digitsOf n.significand
  let e := n.exponent + ds.length - 1
  signText n.negative ++
    if n.significand = 0 then ['0', '.', '0']
    else if style.positionalFrom ≤ e ∧ e < style.positionalBelow then positional ds (e + 1)
    else style.scientific ds e

end NumberStyle

/-- A double as a numeral that reads back, or as one of the words for what is not finite. -/
def numberText (x : Float) : List Char :=
  if Binary64.isFinite x then numberStyle.text (Numeral.shortest x)
  else if Binary64.isNaN x then ['n', 'a', 'n']
  else signText (Binary64.isNegative x) ++ ['i', 'n', 'f']

/-- Integral numbers print all their digits and no fraction. -/
def valueText (x : Float) : List Char :=
  if Binary64.isInteger x then integerText (Binary64.truncate x) else numberText x

end WaveNotebook
