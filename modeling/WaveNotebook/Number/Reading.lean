import WaveNotebook.Number.Decimal
import WaveNotebook.Text.Blank
import WaveNotebook.Text.Digit

/-!
# Reading numerals

`scanNumeral` takes the longest numeral at the front of a text: an optional
sign, digits with an optional point among or around them, and an exponent only
if at least one digit follows it. `readNumber?` accepts a text that is one
numeral between blanks. `readFloat?` is more liberal: digits may be grouped by
underscores, and the words for infinity and for what is not a number are read;
but the information separators count as no blanks there.
-/

namespace WaveNotebook

/-- The digits at the front of a text, and the rest. -/
def spanDigits (s : List Char) : List Char × List Char :=
  (s.takeWhile Text.isDigit, s.dropWhile Text.isDigit)

/-- Whether a minus sign leads, and the text behind the sign. -/
def scanSign : List Char → Bool × List Char
  | '+' :: r => (false, r)
  | '-' :: r => (true, r)
  | r => (false, r)

/-- The digits before and after the point, at least one in all, and the rest. -/
def scanSignificand (s : List Char) : Option (List Char × List Char × List Char) :=
  let (whole, r) := spanDigits s
  match r with
  | '.' :: r =>
    let (fraction, r) := spanDigits r
    if whole.isEmpty && fraction.isEmpty then none else some (whole, fraction, r)
  | r => if whole.isEmpty then none else some (whole, [], r)

/-- The exponent at the front of a text, which is zero and takes nothing if it has no digit. -/
def scanExponent (s : List Char) : Int × List Char :=
  match s with
  | [] => (0, [])
  | c :: r =>
    if c = 'e' ∨ c = 'E' then
      let (negative, r) := scanSign r
      let (digits, r) := spanDigits r
      if digits.isEmpty then (0, s)
      else
        let n : Int := Text.digitsValue digits
        (if negative then -n else n, r)
    else (0, s)

/-- The longest numeral at the front of a text, and the rest. -/
def scanNumeral (s : List Char) : Option (Numeral × List Char) :=
  let (negative, r) := scanSign s
  match scanSignificand r with
  | none => none
  | some (whole, fraction, r) =>
    let (exponent, r) := scanExponent r
    some (⟨negative, Text.digitsValue (whole ++ fraction), exponent - fraction.length⟩, r)

/-- The number that a text is. -/
def wholeNumber? (s : List Char) : Option Float :=
  match scanNumeral s with
  | some (n, []) => some n.toFloat
  | _ => none

/-- The number that a text is, apart from blanks around it. -/
def readNumber? (s : List Char) : Option Float :=
  wholeNumber? (Text.trim s)

/-- Blank characters that may stand around a number outside of literals. -/
def isMargin (c : Char) : Bool :=
  Text.isBlank c && !(0x1C ≤ c.toNat && c.toNat ≤ 0x1F)

def trimMargins (s : List Char) : List Char :=
  ((s.dropWhile isMargin).reverse.dropWhile isMargin).reverse

/-- The text without its underscores, each of which must stand between two digits. -/
def withoutGrouping : List Char → Option (List Char)
  | [] => some []
  | a :: '_' :: b :: r =>
    if Text.isDigit a && Text.isDigit b then (withoutGrouping (b :: r)).map (a :: ·) else none
  | '_' :: _ => none
  | a :: r => (withoutGrouping r).map (a :: ·)

/-- Infinity or not a number, spelled in any case. -/
def readWord? (s : List Char) : Option Float :=
  let (negative, r) := scanSign s
  let word := String.ofList (r.map Char.toLower)
  if word = "inf" ∨ word = "infinity" then
    some (Binary64.ofCode negative Binary64.infinityCode)
  else if word = "nan" then some Binary64.notANumber
  else none

def readFloat? (s : List Char) : Option Float :=
  let s := trimMargins s
  (readWord? s).or ((withoutGrouping s).bind wholeNumber?)

/-- The integer that a text is: digits, which may be grouped, with an optional sign. -/
def readInteger? (s : List Char) : Option Int :=
  let (negative, r) := scanSign (trimMargins s)
  match withoutGrouping r with
  | some digits =>
    if digits.isEmpty || !digits.all Text.isDigit then none
    else
      let n : Int := Text.digitsValue digits
      some (if negative then -n else n)
  | none => none

end WaveNotebook
