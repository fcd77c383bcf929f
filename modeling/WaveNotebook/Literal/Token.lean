import WaveNotebook.Number.Reading
import WaveNotebook.Scan.Quote
import WaveNotebook.Text.Identifier

/-!
# Tokens of data literals

A literal is a row of tokens with blanks between them: numerals, quoted texts,
words, and single characters for everything else. Each token is the longest one
at its place, and knows its position and its first character.
-/

namespace WaveNotebook.Literal

inductive Token
  | numeral (n : Numeral)
  | quoted (s : List Char)
  /-- A quote without a second one. -/
  | unclosed
  | word (w : List Char)
  | mark (c : Char)

structure Lexeme where
  position : Nat
  first : Char
  token : Token

/-- The token that starts with a given character, and how many characters it takes from the
text behind. -/
def tokenAt (c : Char) (cs : List Char) : Token × Nat :=
  if Scan.isQuote c then
    let inner := cs.takeWhile (· != c)
    if inner.length < cs.length then (.quoted inner, inner.length + 1)
    else (.unclosed, cs.length)
  else
    match scanNumeral (c :: cs) with
    | some (n, rest) => (.numeral n, cs.length - rest.length)
    | none =>
      if Text.isPlainStart c then
        let rest := cs.takeWhile Text.isPlainPart
        (.word (c :: rest), rest.length)
      else (.mark c, 0)

/-- The tokens of a text that starts at a given position. -/
def lexemes (position : Nat) : List Char → List Lexeme
  | [] => []
  | c :: cs =>
    if Text.isBlank c then lexemes (position + 1) cs
    else
      let (token, taken) := tokenAt c cs
      ⟨position, c, token⟩ :: lexemes (position + 1 + taken) (cs.drop taken)
termination_by s => s.length
decreasing_by all_goals simp only [List.length_cons, List.length_drop]; omega

end WaveNotebook.Literal
