import WaveNotebook.Document.Scalar
import WaveNotebook.Document.Token.Plain

/-!
# Quoted scalars as tokens

Between single quotes only the quote itself needs care, and is written twice.
Between double quotes a backslash starts an escape: of one letter, of a code point
by its hexadecimal digits, or of the end of the line. Lines are folded in both
forms as they are in plain scalars.
-/

namespace WaveNotebook.Document

/-- The code points of the escapes of one letter. -/
def escapeLetters : List (Nat × Char) :=
  [(0x00, '0'), (0x07, 'a'), (0x08, 'b'), (0x09, 't'), (0x0A, 'n'), (0x0B, 'v'), (0x0C, 'f'),
    (0x0D, 'r'), (0x1B, 'e'), (0x22, '"'), (0x5C, '\\'), (0x85, 'N'), (0xA0, '_'), (0x2028, 'L'),
    (0x2029, 'P')]

/-- Further escapes that are read, but never needed. -/
def spareLetters : List (Nat × Char) :=
  [(0x09, '\t'), (0x20, ' '), (0x2F, '/')]

/-- The character that a letter stands for behind a backslash. -/
def ofEscapeLetter? (c : Char) : Option Char :=
  ((escapeLetters ++ spareLetters).find? (·.2 == c)).map fun e => Char.ofNat e.1

/-- How many hexadecimal digits follow a letter. -/
def escapeWidth? (c : Char) : Option Nat :=
  if c = 'x' then some 2 else if c = 'u' then some 4 else if c = 'U' then some 8 else none

/-- The escape behind a backslash that does not end a line. -/
def cutEscape (start : Mark) (c : Cursor) : Except Malformed (List Char × Cursor) :=
  match c.peek.bind ofEscapeLetter? with
  | some x => .ok ([x], c.next)
  | none =>
    match c.peek.bind escapeWidth? with
    | none => c.fail (some start) (.escapeLetter c.peek)
    | some width =>
      let d := c.next
      let digits := (d.rest.take width).takeWhile isHex
      if digits.length < width then
        d.fail (some start) (.escapeDigits width (d.peekAt digits.length))
      else .ok ([Char.ofNat (digits.foldl (fun acc x => 16 * acc + digitOf x) 0)], d.skip width)

/-- Empty lines at a cursor and the blanks around them. -/
def quotedBreaks (start : Mark) : Nat → Cursor → Except Malformed (List Char × Cursor)
  | 0, c => .ok ([], c)
  | bound + 1, c =>
    if c.seesSeparator then c.fail (some start) .quoteSeparator
    else
      let c := c.skipWhile isSpace
      match c.takeBreak with
      | none => .ok ([], c)
      | some (b, d) => do
        let (bs, e) ← quotedBreaks start bound d
        return (b :: bs, e)

/-- Blanks inside quotes. At a line break they are folded. -/
def cutQuotedGap (start : Mark) (c : Cursor) : Except Malformed (List Char × Cursor) :=
  let (spaces, c) := c.span isSpace
  match c.takeBreak with
  | some (first, d) => do
    let (others, e) ← quotedBreaks start (d.rest.length + 1) d
    return (foldedBreaks first others, e)
  | none => if c.rest.isEmpty then c.fail (some start) .openQuote else .ok (spaces, c)

/-- Characters inside quotes up to the closing quote or a gap. -/
def cutQuotedWord (quote : Char) (start : Mark) :
    Nat → Cursor → Except Malformed (List Char × Cursor)
  | 0, c => .ok ([], c)
  | bound + 1, c =>
    let behind (text : List Char) (d : Cursor) : Except Malformed (List Char × Cursor) := do
      let (more, e) ← cutQuotedWord quote start bound d
      return (text ++ more, e)
    match c.peek with
    | none => .ok ([], c)
    | some x =>
      if isGap x then .ok ([], c)
      else if quote = '"' ∧ x = '\\' then do
        let d := c.next
        match d.takeBreak with
        | some (_, e) =>
          let (text, e) ← quotedBreaks start (e.rest.length + 1) e
          behind text e
        | none =>
          let (text, e) ← cutEscape start d
          behind text e
      else if x = quote then
        if quote = '\'' ∧ c.peekAt 1 = some '\'' then behind ['\''] (c.skip 2) else .ok ([], c)
      else behind [x] c.next

/-- The inside of a quoted scalar, word by word. -/
def cutQuotedText (quote : Char) (start : Mark) :
    Nat → Cursor → Except Malformed (List Char × Cursor)
  | 0, c => .ok ([], c)
  | bound + 1, c => do
    let (word, c) ← cutQuotedWord quote start (c.rest.length + 1) c
    if c.peek = some quote then return (word, c.next)
    else
      let (gap, c) ← cutQuotedGap start c
      let (more, c) ← cutQuotedText quote start bound c
      return (word ++ gap ++ more, c)

/-- A scalar between quotes. -/
def cutQuoted (quote : Char) (c : Cursor) : Except Malformed (Token × Cursor) := do
  let (text, d) ← cutQuotedText quote c.mark (c.rest.length + 1) c.next
  return (⟨.scalar text .marked, c.mark, d.mark⟩, d)

end WaveNotebook.Document
