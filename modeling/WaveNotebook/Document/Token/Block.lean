import WaveNotebook.Document.Token.Quoted

/-!
# Block scalars as tokens

A block scalar is a run of lines with a common indentation behind a bar, which
keeps the line breaks, or behind an angle, which folds them. Indicators give the
indentation, and whether the line breaks at the end are stripped or kept.
-/

namespace WaveNotebook.Document

/-- What happens to the line breaks at the end of a block scalar. -/
inductive Chomping
  | strip | clip | keep
  deriving DecidableEq, Repr

structure BlockHeader where
  chomping : Chomping
  /-- The indentation of the lines in addition to that of the block around them. -/
  indent : Option Nat

def chomping? : Option Char → Option Chomping
  | some '+' => some .keep
  | some '-' => some .strip
  | _ => none

def blockDigit? (c : Option Char) : Option Nat :=
  (c.filter Char.isDigit).map digitOf

/-- The indicators behind the sign of a block scalar, in either order. -/
def cutBlockHeader (start : Mark) (c : Cursor) : Except Malformed (BlockHeader × Cursor) := do
  let digit (c : Cursor) : Except Malformed (Option Nat × Cursor) :=
    match blockDigit? c.peek with
    | some 0 => c.fail (some start) .blockIndent
    | some n => .ok (some n, c.next)
    | none => .ok (none, c)
  let sign (c : Cursor) : Option Chomping × Cursor :=
    match chomping? c.peek with
    | some s => (some s, c.next)
    | none => (none, c)
  let (first, c) := sign c
  let (indent, c) ← digit c
  let (chomping, c) := if first.isNone && indent.isSome then sign c else (first, c)
  if endsWord c.peek then return (⟨chomping.getD .clip, indent⟩, c)
  else c.fail (some start) (.blockIndicator c.peek)

/-- Skips the indentation of a line, at most up to a column. -/
def skipIndent (column : Nat) (c : Cursor) : Cursor :=
  c.skip (c.rest.takeWhile (· == ' ') |>.take (column - c.mark.column)).length

/-- Empty lines before a line of a given indentation, and the cursor behind that. -/
def emptyLines (column : Nat) : Nat → Cursor → List Char × Cursor
  | 0, c => ([], c)
  | bound + 1, c =>
    let c := skipIndent column c
    match c.takeBreak with
    | none => ([], c)
    | some (b, d) =>
      let (bs, e) := emptyLines column bound d
      (b :: bs, e)

/-- Empty lines at the start, and the greatest column that spaces reach. -/
def leadingLines : Nat → Cursor → List Char × Nat × Cursor
  | 0, c => ([], 0, c)
  | bound + 1, c =>
    let c := c.skipWhile (· == ' ')
    let column := c.mark.column
    match c.takeBreak with
    | none => ([], column, c)
    | some (b, d) =>
      let (bs, most, e) := leadingLines bound d
      (b :: bs, max column most, e)

/-- The lines of a block scalar: its text, the line breaks at its end, and the cursor there. -/
structure BlockRun where
  text : List Char
  lastBreak : List Char
  breaks : List Char
  cursor : Cursor

/-- Adds lines as long as they reach the column. -/
def BlockRun.extend (folded : Bool) (column : Nat) : Nat → BlockRun → BlockRun
  | 0, run => run
  | bound + 1, run =>
    let c := run.cursor
    if c.mark.column ≠ column ∨ c.rest.isEmpty then run
    else
      let flush := !c.sees isSpace
      let (line, d) := c.span (!isBreak ·)
      let (lastBreak, e) := match d.takeBreak with
        | some (b, e) => ([b], e)
        | none => ([], d)
      let (breaks, e) := emptyLines column (e.rest.length + 1) e
      let text := run.text ++ run.breaks ++ line
      if e.mark.column = column ∧ !e.rest.isEmpty then
        let joined :=
          if folded && lastBreak == ['\n'] && flush && !e.sees isSpace then
            if breaks.isEmpty then [' '] else []
          else lastBreak
        BlockRun.extend folded column bound ⟨text ++ joined, [], breaks, e⟩
      else ⟨text, lastBreak, breaks, e⟩

/-- A block scalar inside a block with a margin. -/
def cutBlock (folded : Bool) (margin : Nat) (c : Cursor) : Except Malformed (Token × Cursor) := do
  let start := c.mark
  let (header, d) ← cutBlockHeader start c.next
  let d ← d.skipLine start .blockLine
  let least := max margin 1
  let (breaks, column, d) := match header.indent with
    | some n =>
      let column := least + n - 1
      let (bs, d) := emptyLines column (d.rest.length + 1) d
      (bs, column, d)
    | none =>
      let (bs, most, d) := leadingLines (d.rest.length + 1) d
      (bs, max least most, d)
  let run := BlockRun.extend folded column (d.rest.length + 1) ⟨[], [], breaks, d⟩
  let ending := match header.chomping with
    | .strip => []
    | .clip => run.lastBreak
    | .keep => run.lastBreak ++ run.breaks
  return (⟨.scalar (run.text ++ ending) .marked, start, run.cursor.mark⟩, run.cursor)

end WaveNotebook.Document
