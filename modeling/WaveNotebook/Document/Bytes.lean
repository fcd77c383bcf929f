import WaveNotebook.Text.Quoted

/-!
# Bytes in a document

A document writes bytes in an alphabet of sixty-four letters, each of which stands
for six bits, so that four letters are three bytes. Characters outside the alphabet
are passed over. Equals signs that fill up a group of four letters end the bytes,
whatever follows.
-/

namespace WaveNotebook.Document

/-- Why a text holds no bytes. -/
inductive ByteProblem
  /-- Characters outside ASCII, the first of which has the given place. -/
  | foreign (place : Nat) (c : Char) (more : Nat)
  /-- The last of so many letters is alone in its group. -/
  | lonely (count : Nat)
  | unfilled

namespace ByteProblem

def text : ByteProblem → String
  | foreign place c more =>
    let digits := fun n => String.ofList (Text.digitsOf n)
    let found :=
      if more = 0 then
        "character '" ++ String.ofList (Text.codePointEscape c) ++ "' in position " ++ digits place
      else "characters in position " ++ digits place ++ "-" ++ digits (place + more)
    "failed to convert base64 data into ascii: 'ascii' codec can't encode " ++ found ++
      ": ordinal not in range(128)"
  | lonely count =>
    "failed to decode base64 data: Invalid base64-encoded string: number of data characters (" ++
      String.ofList (Text.digitsOf count) ++ ") cannot be 1 more than a multiple of 4"
  | unfilled => "failed to decode base64 data: Incorrect padding"

end ByteProblem

namespace Bytes

/-- The six bits of a letter. -/
def bits? (c : Char) : Option Nat :=
  if c.isUpper then some (c.toNat - 65)
  else if c.isLower then some (c.toNat - 71)
  else if c.isDigit then some (c.toNat + 4)
  else if c = '+' then some 62
  else if c = '/' then some 63
  else none

/-- The bytes so far with those of the characters ahead. The group that is open has so many
letters, some bits that are in no byte yet, and so many equals signs. -/
def collect (bytes : List Nat) (letters rest fills : Nat) :
    List Char → Except ByteProblem (List Nat)
  | [] =>
    if letters = 0 then .ok bytes
    else if letters = 1 then .error (.lonely (bytes.length / 3 * 4 + 1))
    else .error .unfilled
  | c :: cs =>
    if c = '=' then
      if letters < 2 then collect bytes letters rest fills cs
      else if letters + fills < 3 then collect bytes letters rest (fills + 1) cs
      else .ok bytes
    else
      match bits? c with
      | none => collect bytes letters rest fills cs
      | some v =>
        let bits := rest * 64 + v
        let unit := Nat.pow 4 (3 - letters)
        collect (if letters = 0 then bytes else bytes ++ [bits / unit]) ((letters + 1) % 4)
          (bits % unit) 0 cs

def isForeign (c : Char) : Bool := 0x80 ≤ c.toNat

/-- The bytes that a text writes. -/
def ofText (s : List Char) : Except ByteProblem (List Nat) :=
  match s.dropWhile (!isForeign ·) with
  | c :: cs =>
    .error (.foreign (s.takeWhile (!isForeign ·)).length c (cs.takeWhile isForeign).length)
  | [] => collect [] 0 0 0 s

/-- Bytes in quotes; those that are no visible ASCII characters are escaped. -/
def shown (bytes : List Nat) : String :=
  let cs := bytes.map Char.ofNat
  let quote := Text.quoteFor cs
  let escaped := fun c => if c.toNat < 0x7F then Text.quotedChar quote c else Text.codePointEscape c
  String.ofList ('b' :: quote :: cs.flatMap escaped ++ [quote])

end Bytes

end WaveNotebook.Document
