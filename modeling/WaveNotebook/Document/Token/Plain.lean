import WaveNotebook.Document.Token.Name

/-!
# Plain scalars as tokens

A plain scalar is a run of words without quotes. It ends at a comment, at a colon
with a gap behind it, at a line that is not indented deeper than the block around
it, and inside brackets at a comma or a bracket. Words keep the spaces between
them; a line break stands for a space, and empty lines stand for line breaks.
-/

namespace WaveNotebook.Document

/-- The characters that separate and enclose the parts of a bracketed collection. -/
def isFlowMark (c : Char) : Bool :=
  c == ',' || c == '[' || c == ']' || c == '\x7b' || c == '\x7d'

/-- What line breaks stand for: the first one counts only if it is a separator, or if no other
one follows. -/
def foldedBreaks (first : Char) (others : List Char) : List Char :=
  if first ≠ '\n' then first :: others
  else if others.isEmpty then [' ']
  else others

/-- The word at the front of a plain scalar, inside brackets or not. -/
def plainWord (flow : Bool) : List Char → List Char
  | [] => []
  | c :: r =>
    let colon := c == ':' && endsOr (fun x => isGap x || (flow && isFlowMark x)) r.head?
    if isGap c || colon || (flow && (isFlowMark c || c == '?')) then []
    else c :: plainWord flow r

/-- What stands between two words: its meaning, the cursor behind it, and whether it holds a
line break. -/
structure Gap where
  text : List Char
  cursor : Cursor
  broken : Bool

/-- Line breaks with spaces around them, unless a line separates documents. The first argument
bounds the number of steps. -/
def takeBreaks : Nat → Cursor → Option (List Char) × Cursor
  | 0, c => (some [], c)
  | bound + 1, c =>
    let c := c.skipWhile (· == ' ')
    match c.takeBreak with
    | none => (some [], c)
    | some (b, d) =>
      if d.seesSeparator then (none, d)
      else
        let (bs, e) := takeBreaks bound d
        (bs.map (b :: ·), e)

/-- The gap at a cursor; it means nothing if no word of the same scalar can follow. -/
def takeGap (c : Cursor) : Gap :=
  let (spaces, c) := c.span (· == ' ')
  match c.takeBreak with
  | none => ⟨spaces, c, false⟩
  | some (first, d) =>
    if d.seesSeparator then ⟨[], d, true⟩
    else
      match takeBreaks (d.rest.length + 1) d with
      | (some others, e) => ⟨foldedBreaks first others, e, true⟩
      | (none, e) => ⟨[], e, true⟩

/-- A plain scalar: its text, the place where it stops, the cursor behind the gap that follows,
and whether that gap holds a line break. -/
structure PlainRun where
  text : List Char
  stop : Mark
  cursor : Cursor
  broken : Bool

/-- Continues a plain scalar behind a gap. Lines must be indented to the margin outside of
brackets. The first argument bounds the number of words. -/
def PlainRun.extend (flow : Bool) (margin : Nat) : Nat → PlainRun → List Char → PlainRun
  | 0, run, _ => run
  | bound + 1, run, gap =>
    let word := plainWord flow run.cursor.rest
    if word.isEmpty then run
    else
      let c := run.cursor.skip word.length
      let next := takeGap c
      let run : PlainRun := ⟨run.text ++ gap ++ word, c.mark, next.cursor, next.broken⟩
      if next.text.isEmpty || next.cursor.peek == some '#' ||
          (!flow && next.cursor.mark.column < margin) then run
      else run.extend flow margin bound next.text

def cutPlain (flow : Bool) (margin : Nat) (c : Cursor) : PlainRun :=
  PlainRun.extend flow margin (c.rest.length + 1) ⟨[], c.mark, c, false⟩ []

end WaveNotebook.Document
