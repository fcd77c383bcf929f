/-!
# Places in a document

A cursor is the unread rest of a document with the place where it starts. A place
counts characters, lines and columns from zero; a byte order mark takes up no
column.
-/

namespace WaveNotebook.Document

structure Mark where
  index : Nat
  line : Nat
  column : Nat
  deriving DecidableEq, Repr, Inhabited

def isBreak (c : Char) : Bool :=
  c == '\n' || c == '\x85' || c == '\u2028' || c == '\u2029'

/-- A blank inside a line. -/
def isSpace (c : Char) : Bool :=
  c == ' ' || c == '\t'

/-- Characters that separate words. -/
def isGap (c : Char) : Bool :=
  isSpace c || isBreak c

/-- Whether a character is missing or satisfies a test. -/
def endsOr (p : Char → Bool) : Option Char → Bool
  | none => true
  | some c => p c

def byteOrderMark : Char := '\uFEFF'

structure Cursor where
  rest : List Char
  mark : Mark

namespace Cursor

def start (text : List Char) : Cursor := ⟨text, ⟨0, 0, 0⟩⟩

def peek (c : Cursor) : Option Char := c.rest.head?

def peekAt (c : Cursor) (n : Nat) : Option Char := c.rest[n]?

/-- Whether the next character satisfies a test. -/
def sees (c : Cursor) (p : Char → Bool) : Bool :=
  (c.peek.map p).getD false

/-- The place behind one more character. -/
def advance (m : Mark) (c : Char) : Mark :=
  if isBreak c then ⟨m.index + 1, m.line + 1, 0⟩
  else if c = byteOrderMark then ⟨m.index + 1, m.line, m.column⟩
  else ⟨m.index + 1, m.line, m.column + 1⟩

def next (c : Cursor) : Cursor :=
  match c.rest with
  | [] => c
  | x :: xs => ⟨xs, advance c.mark x⟩

def skip (c : Cursor) (n : Nat) : Cursor :=
  ⟨c.rest.drop n, (c.rest.take n).foldl advance c.mark⟩

/-- The characters at the front that satisfy a test, and the cursor behind them. -/
def span (c : Cursor) (p : Char → Bool) : List Char × Cursor :=
  let taken := c.rest.takeWhile p
  (taken, c.skip taken.length)

def skipWhile (c : Cursor) (p : Char → Bool) : Cursor :=
  (c.span p).2

/-- Skips a line break and returns what it stands for: every kind is a line feed, but for the
two separators of lines and paragraphs. -/
def takeBreak (c : Cursor) : Option (Char × Cursor) :=
  match c.peek with
  | some x =>
    if x = '\n' ∨ x = '\x85' then some ('\n', c.next)
    else if isBreak x then some (x, c.next)
    else none
  | none => none

/-- Whether a text comes next, with a gap or the end behind it. -/
def seesWord (c : Cursor) (word : List Char) : Bool :=
  word.isPrefixOf c.rest && endsOr isGap (c.peekAt word.length)

/-- Whether a line that separates documents comes next. -/
def seesSeparator (c : Cursor) : Bool :=
  c.seesWord ['-', '-', '-'] || c.seesWord ['.', '.', '.']

end Cursor

end WaveNotebook.Document
