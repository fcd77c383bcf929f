import WaveNotebook.Number.Reading

/-!
# Reading complex numbers

A complex number is a real number, an imaginary one with the unit `j` behind it,
or a real number with a signed imaginary one behind it; the imaginary unit may
stand without digits. Blanks may stand around the number, and parentheses too.
-/

namespace WaveNotebook

/-- The rest of a text behind a word, in any case of its letters. -/
def behindWord? (word : List Char) (s : List Char) : Option (List Char) :=
  if (s.take word.length).map Char.toLower = word then some (s.drop word.length) else none

/-- A word for infinity or for what is not a number at the front of a text. -/
def scanWord (s : List Char) : Option (Float × List Char) :=
  let (negative, r) := scanSign s
  match behindWord? ['i', 'n', 'f'] r with
  | some r =>
    some (Binary64.ofCode negative Binary64.infinityCode,
      (behindWord? ['i', 'n', 'i', 't', 'y'] r).getD r)
  | none => (behindWord? ['n', 'a', 'n'] r).map (Binary64.notANumber, ·)

/-- A real number at the front of a text. -/
def scanReal (s : List Char) : Option (Float × List Char) :=
  ((scanNumeral s).map fun p => (p.1.toFloat, p.2)).or (scanWord s)

def isUnit (c : Char) : Bool :=
  c == 'j' || c == 'J'

/-- One, or minus one behind a minus sign, and the rest. -/
def scanUnitSign (s : List Char) : Float × List Char :=
  let (negative, r) := scanSign s
  (if negative then -1.0 else 1.0, r)

/-- The real and the imaginary part at the front of a text. -/
def scanComplex (s : List Char) : Option (Float × Float × List Char) :=
  match scanReal s with
  | none =>
    match scanUnitSign s with
    | (y, c :: r) => if isUnit c then some (0.0, y, r) else none
    | _ => none
  | some (x, []) => some (x, 0.0, [])
  | some (x, c :: r) =>
    if isUnit c then some (0.0, x, r)
    else if c = '+' ∨ c = '-' then
      match (scanReal (c :: r)).getD (scanUnitSign (c :: r)) with
      | (y, u :: r) => if isUnit u then some (x, y, r) else none
      | _ => none
    else some (x, 0.0, c :: r)

/-- The complex number that a text without underscores is. -/
def wholeComplex? (s : List Char) : Option (Float × Float) :=
  let (enclosed, s) := match s.dropWhile isMargin with
    | '(' :: r => (true, r.dropWhile isMargin)
    | r => (false, r)
  match scanComplex s with
  | none => none
  | some (x, y, r) =>
    match enclosed, r.dropWhile isMargin with
    | false, [] => some (x, y)
    | true, ')' :: r => if r.all isMargin then some (x, y) else none
    | _, _ => none

end WaveNotebook
