import WaveNotebook.Document.Token.Lexer

/-!
# Writing scalars

A text is written plain where it reads back as itself, between single quotes where
its characters allow it, and between double quotes with escapes otherwise. A line
that has grown beyond the width is folded: at a single space, or between double
quotes behind a backslash.
-/

namespace WaveNotebook.Document

/-- The column up to which lines are not folded, and the indentation of lines that continue
a scalar. -/
structure Layout where
  width : Nat
  indent : Nat

/-- The layout of the values in a block of fields inside another one. -/
def layout : Layout := ⟨80, 4⟩

def Layout.newLine (l : Layout) : List Char :=
  '\n' :: List.replicate l.indent ' '

def isSimple (c : Char) : Bool :=
  ' ' ≤ c && c ≤ '~'

/-- Whether a plain scalar may go on with a text, given the character before it. -/
def continuesPlain (before : Char) : List Char → Bool
  | [] => true
  | c :: cs =>
    !(c == ':' && endsOr isGap cs.head?) && !(c == '#' && isGap before) && continuesPlain c cs

/-- Whether a text written plain would be read as something else. -/
def isReserved (s : List Char) : Bool :=
  formOf s != .text

def isPlain : List Char → Bool
  | [] => false
  | c :: cs =>
    let s := c :: cs
    s.all isSimple && c != ' ' && s.getLast? != some ' ' &&
      !(['-', '-', '-'].isPrefixOf s) && !(['.', '.', '.'].isPrefixOf s) &&
      Lexer.startsPlain true c cs.head? && continuesPlain c cs && !isReserved s

/-- Whether a break stands beside a space. -/
def hasBreakAtSpace : List Char → Bool
  | a :: b :: r =>
    (a == '\n' && b == ' ') || (a == ' ' && b == '\n') || hasBreakAtSpace (b :: r)
  | _ => false

/-- Single quotes hold simple characters and line feeds, but no spaces around a line feed. -/
def isSingle (s : List Char) : Bool :=
  s.all (fun c => isSimple c || c == '\n') && !hasBreakAtSpace s

/-- A text with its single spaces folded and its line feeds doubled, as plain words or between
single quotes. The column is the one of the next character. -/
def foldedText (l : Layout) (single : Bool) (column : Nat) (before : Option Char) :
    List Char → List Char
  | [] => []
  | c :: cs =>
    let next := cs.head?
    if c = ' ' then
      if l.width < column && before.isSome && before != some ' ' && next.isSome &&
          next != some ' ' then
        l.newLine ++ foldedText l single l.indent (some c) cs
      else c :: foldedText l single (column + 1) (some c) cs
    else if c = '\n' then
      let first := if before = some '\n' then [] else ['\n']
      if next = some '\n' then first ++ '\n' :: foldedText l single column (some c) cs
      else first ++ l.newLine ++ foldedText l single l.indent (some c) cs
    else if single ∧ c = '\'' then
      '\'' :: '\'' :: foldedText l single (column + 2) (some c) cs
    else c :: foldedText l single (column + 1) (some c) cs

/-- The escape of a character between double quotes, if it needs one. -/
def escape? (c : Char) : Option (List Char) :=
  let n := c.toNat
  let upper (cs : List Char) := cs.map Char.toUpper
  match escapeLetters.lookup n with
  | some letter => some ['\\', letter]
  | none =>
    if isSimple c then none
    else if n < 0x100 then some ('\\' :: 'x' :: upper (Text.hexDigits 2 n))
    else if n < 0x10000 then some ('\\' :: 'u' :: upper (Text.hexDigits 4 n))
    else some ('\\' :: 'U' :: upper (Text.hexDigits 8 n))

/-- A text with escapes. A long line is folded at a space or behind an escape, but neither at
the first character nor at the last one; a space behind a fold has a backslash. -/
def escapedText (l : Layout) (column : Nat) (first behindEscape : Bool) : List Char → List Char
  | [] => []
  | c :: cs =>
    let inner := !first && !cs.isEmpty
    let fold (next : Option Char) : List Char × Nat :=
      if next = some ' ' then ('\\' :: l.newLine ++ ['\\'], l.indent + 1)
      else ('\\' :: l.newLine, l.indent)
    match escape? c with
    | some e =>
      let column := column + e.length
      if inner && l.width + 1 < column then
        let (folded, column) := fold cs.head?
        e ++ folded ++ escapedText l column false true cs
      else e ++ escapedText l column false true cs
    | none =>
      if inner && (c == ' ' || behindEscape) && l.width < column then
        let (folded, column) := fold (some c)
        folded ++ c :: escapedText l (column + 1) false false cs
      else c :: escapedText l (column + 1) false false cs

/-- A text as a scalar that starts at a column. -/
def writeText (l : Layout) (column : Nat) (s : List Char) : List Char :=
  if isPlain s then foldedText l false column none s
  else if isSingle s then '\'' :: foldedText l true (column + 1) none s ++ ['\'']
  else '"' :: escapedText l (column + 1) true false s ++ ['"']

/-- A number always has a point, in front of the exponent if there is one. -/
def writeNumber (x : Float) : List Char :=
  let s := numberText x
  if s.contains '.' then s
  else s.flatMap fun c => if c = 'e' then ['.', '0', 'e'] else [c]

/-- A datum without parts as a scalar that starts at a column. -/
def write (l : Layout) (column : Nat) : Datum → List Char
  | .bool b => if b then "true".toList else "false".toList
  | .integer n => integerText n
  | .number x => writeNumber x
  | .text s => writeText l column s.toList
  | _ => "null".toList

/-- Fields of scalars as lines with the same indentation. -/
def writeFields (l : Layout) (indent : Nat) (fields : Record) : List Char :=
  fields.flatMap fun f =>
    let key := List.replicate indent ' ' ++ f.1.toList ++ [':', ' ']
    key ++ write l key.length f.2 ++ ['\n']

end WaveNotebook.Document
