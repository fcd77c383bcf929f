/-!
# Quoted spans

All scanners of notebook text read it from left to right with the same state:
the quote that is open, if any. A span runs from a quote to the next equal one;
the other quote has no meaning inside, and there are no escapes.
-/

namespace WaveNotebook.Scan

def isQuote (c : Char) : Bool :=
  c == '\'' || c == '"'

/-- The quote that is open after a character. -/
def quoteAfter (quote : Option Char) (c : Char) : Option Char :=
  match quote with
  | some q => if c = q then none else some q
  | none => if isQuote c then some c else none

end WaveNotebook.Scan
