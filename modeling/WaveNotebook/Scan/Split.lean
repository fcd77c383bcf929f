import WaveNotebook.Fault
import WaveNotebook.Scan.Quote

/-!
# Splitting at the top level

`splitTopLevel` cuts a text at the separators that stand outside quoted spans
and brackets. It keeps a stack of the brackets that wait to be closed, so it
succeeds on balanced texts only, and it leaves blanks around the pieces alone.
Quotes and brackets keep their meaning even if one of them is the separator.
-/

namespace WaveNotebook.Scan

/-- The bracket that closes an opening one. -/
def closerOf : Char → Option Char
  | '(' => some ')'
  | '[' => some ']'
  | '{' => some '}'
  | _ => none

/-- The bracket that a closing one closes. -/
def openerOf : Char → Option Char
  | ')' => some '('
  | ']' => some '['
  | '}' => some '{'
  | _ => none

/-- Puts a character in front of the first piece. -/
def extend (c : Char) : List (List Char) → List (List Char)
  | [] => [[c]]
  | p :: ps => (c :: p) :: ps

/-- Splits the rest of a text, given the open quote and the closing brackets that are due, the
innermost first. -/
def splitFrom (sep : Char) :
    Option Char → List Char → List Char → Except TextFault (List (List Char))
  | some _, _, [] => .error .openQuote
  | none, [], [] => .ok [[]]
  | none, closer :: _, [] => .error (.unmatched ((openerOf closer).getD closer))
  | some q, due, c :: cs => extend c <$> splitFrom sep (quoteAfter (some q) c) due cs
  | none, due, c :: cs =>
    if isQuote c then extend c <$> splitFrom sep (some c) due cs
    else if let some closer := closerOf c then
      extend c <$> splitFrom sep none (closer :: due) cs
    else if (openerOf c).isSome then
      match due with
      | closer :: due =>
        if c = closer then extend c <$> splitFrom sep none due cs else .error (.unmatched c)
      | [] => .error (.unmatched c)
    else if c = sep ∧ due = [] then ([] :: ·) <$> splitFrom sep none due cs
    else extend c <$> splitFrom sep none due cs

def splitTopLevel (sep : Char) (text : List Char) : Except TextFault (List (List Char)) :=
  splitFrom sep none [] text

end WaveNotebook.Scan
