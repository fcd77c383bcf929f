import WaveNotebook.Scan.Quote
import WaveNotebook.Text.Blank

/-!
# Comments

A comment starts at the first marker outside a quoted span and runs to the end
of the line. A character that opens a span is never the start of a marker.
-/

namespace WaveNotebook.Scan

/-- The part of a line before its comment, given the open quote. -/
def beforeComment (marker : List Char) : Option Char → List Char → List Char
  | _, [] => []
  | some q, c :: cs => c :: beforeComment marker (quoteAfter (some q) c) cs
  | none, c :: cs =>
    if isQuote c then c :: beforeComment marker (some c) cs
    else if marker.isPrefixOf (c :: cs) then []
    else c :: beforeComment marker none cs

def stripComment (marker line : List Char) : List Char :=
  Text.trim (beforeComment marker none line)

end WaveNotebook.Scan
