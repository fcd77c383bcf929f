import WaveNotebook.Fault
import WaveNotebook.Scan.Quote

/-!
# Matching parentheses

The closing parenthesis of an opening one is the first, outside quoted spans, at
which as many have been closed as opened since. Other brackets are not looked at.
A negative position counts from the end of the text; the scan runs to the end
then, and goes on with the text from its start.
-/

namespace WaveNotebook.Scan

/-- The position of the parenthesis that brings the depth back to zero, given the open quote,
the depth and the position of the rest of the text. -/
def closingParen? : Option Char → Int → Nat → List Char → Option Nat
  | _, _, _, [] => none
  | some q, depth, i, c :: cs => closingParen? (quoteAfter (some q) c) depth (i + 1) cs
  | none, depth, i, c :: cs =>
    if isQuote c then closingParen? (some c) depth (i + 1) cs
    else if c = '(' then closingParen? none (depth + 1) (i + 1) cs
    else if c = ')' then
      if depth = 1 then some i else closingParen? none (depth - 1) (i + 1) cs
    else closingParen? none depth (i + 1) cs

/-- The parenthesis that matches the one at a position of a text. -/
def matchingParen (text : List Char) (start : Nat) : Except TextFault Nat :=
  match closingParen? none 0 start (text.drop start) with
  | some i => .ok i
  | none => .error (.unmatched '(')

/-- The parenthesis that matches the one at a position, which may count from the end. -/
def matchingParenAt (text : List Char) (start : Int) : Except Fault Int :=
  if 0 ≤ start then ((matchingParen text start.toNat).mapError Fault.text).map Int.ofNat
  else if text.length < start.natAbs then .error (.numeric (.lookup (.place "string")))
  else
    match closingParen? none 0 0 (text.drop (text.length - start.natAbs) ++ text) with
    | some i => .ok (start + i)
    | none => .error (.text (.unmatched '('))

end WaveNotebook.Scan
