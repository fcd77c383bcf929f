import WaveNotebook.Number.Column

/-!
# Arrays as text

An array is written in nested brackets, one row of the last dimension after the
other. A row that is longer than a line goes on in the next one, indented below
its first number. Of an array with very many numbers only those at the edges are
shown.
-/

namespace WaveNotebook.ArrayText

/-- The characters of a line. -/
def lineWidth : Nat := 75

/-- The greatest number of entries that are all shown. -/
def threshold : Nat := 1000

/-- How many entries are shown at each edge of a dimension that is cut short. -/
def edge : Nat := 3

def count (shape : List Nat) : Nat :=
  shape.foldl (· * ·) 1

/-- The places of a dimension that are shown; `none` stands for those that are left out. -/
def shownPlaces (short : Bool) (n : Nat) : List (Option Nat) :=
  if short && decide (2 * edge < n) then
    (List.range edge).map some ++ none :: (List.range' (n - edge) edge).map some
  else (List.range n).map some

/-- The entries that are shown, of an array with given dimensions. -/
def shownEntries {β : Type} (short : Bool) : List Nat → List β → List β
  | [], cells => cells.take 1
  | n :: shape, cells =>
    let stride := count shape
    (shownPlaces short n).flatMap fun
      | some i => shownEntries short shape ((cells.drop (i * stride)).take stride)
      | none => []

/-- A text that grows by words: the complete lines, and the last one. -/
structure Lines where
  done : List Char
  line : List Char

/-- Adds a word, on a new line if the last one would become too long; a line with nothing but its
indentation never does. -/
def Lines.add (width : Nat) (indent : List Char) (l : Lines) (word : List Char) : Lines :=
  if indent.length < l.line.length ∧ width < l.line.length + word.length then
    ⟨l.done ++ (l.line.reverse.dropWhile (· == ' ')).reverse ++ ['\n'], indent ++ word⟩
  else ⟨l.done, l.line ++ word⟩

/-- Words between separators. -/
def flow (width : Nat) (indent separator : List Char) (words : List (List Char)) : List Char :=
  let start : Lines := ⟨[], indent⟩
  let add (l : Lines) (w : Nat × List Char) : Lines :=
    let l := if w.1 = 0 then l else { l with line := l.line ++ separator }
    l.add width indent w.2
  let l := ((List.range words.length).zip words).foldl add start
  l.done ++ l.line

def ellipsis : List Char := ['.', '.', '.']

def trimRight (s : List Char) : List Char :=
  (s.reverse.dropWhile (· == ' ')).reverse

/-- An array in brackets, without the indentation of its first line. -/
def block {β : Type} (word : β → List Char) (short : Bool) (separator : List Char) :
    (width : Nat) → (indent : List Char) → List Nat → List β → List Char
  | _, _, [], cells => cells.take 1 |>.flatMap word
  | width, indent, [n], cells =>
    let entries := cells.toArray
    let words := (shownPlaces short n).map fun
      | some i => ((entries[i]?).map word).getD []
      | none => ellipsis
    let room := width - max (trimRight separator).length 1
    '[' :: (flow room indent separator words).drop indent.length ++ [']']
  | width, indent, n :: m :: shape, cells =>
    let stride := count (m :: shape)
    let blocks := (shownPlaces short n).map fun
      | some i =>
        indent ++ block word short separator (width - 1) (indent ++ [' ']) (m :: shape)
          ((cells.drop (i * stride)).take stride)
      | none => indent ++ ellipsis
    let breaks := trimRight separator ++ List.replicate (shape.length + 1) '\n'
    '[' :: (breaks.intercalate blocks).drop indent.length ++ [']']

/-- What stands before the brackets of a written array. -/
def opening : List Char := "array(".toList

/-- Dimensions in brackets; a comma tells a single one from a number. -/
def shapeWords : List Nat → List Char
  | [n] => '(' :: Text.digitsOf n ++ [',', ')']
  | shape => '(' :: [',', ' '].intercalate (shape.map Text.digitsOf) ++ [')']

/-- A written array with a note behind it, on a new line if the last one would become too long. -/
def annotated (text note : List Char) : List Char :=
  let last := (text.reverse.takeWhile (· != '\n')).length
  let gap := if lineWidth < last + note.length + 3 then '\n' :: opening.map fun _ => ' ' else [' ']
  text ++ ',' :: gap ++ note ++ [')']

section

variable {β : Type} (layout : List β → β → List Char)

/-- The written form of an array of some type of entries, each laid out among all that are
shown. -/
def written (element : String) (shape : List Nat) (cells : List β) : List Char :=
  let total := count shape
  let dimensions := "shape=".toList ++ shapeWords shape
  if total = 0 then
    let element := "dtype=".toList ++ element.toList
    let notes := if shape.length = 1 then element else dimensions ++ [',', ' '] ++ element
    opening ++ ['[', ']', ',', ' '] ++ notes ++ [')']
  else
    let short := decide (threshold < total)
    let word := layout (shownEntries short shape cells)
    let text := opening ++ block word short [',', ' '] (lineWidth - 1)
      (List.replicate (opening.length + 1) ' ') shape cells
    if short then annotated text dimensions else text ++ [')']

/-- An array inside a sentence. -/
def plain (shape : List Nat) (cells : List β) : List Char :=
  let short := decide (threshold < count shape)
  let word := layout (shownEntries short shape cells)
  if count shape = 0 then ['[', ']'] else block word short [' '] lineWidth [' '] shape cells

end

/-- A number in the column of numbers. -/
def ofReals (xs : List Float) : Float → List Char :=
  (NumberColumn.ofNumbers false xs).text

/-- A complex number by its parts; the imaginary unit stands before the blanks of the second. -/
def ofComplex (zs : List (Float × Float)) : Float × Float → List Char :=
  let re := NumberColumn.ofNumbers false (zs.map (·.1))
  let im := NumberColumn.ofNumbers true (zs.map (·.2))
  fun z =>
    let second := im.text z.2
    let shown := trimRight second
    re.text z.1 ++ shown ++ 'j' :: List.replicate (second.length - shown.length) ' '

def shownReals (shape : List Nat) (cells : List Float) : String :=
  String.ofList (written ofReals "float64" shape cells)

/-- A single number inside a sentence has no brackets and stands for itself. -/
def plainReals (shape : List Nat) (cells : List Float) : String :=
  match shape, cells with
  | [], [x] => String.ofList (numberText x)
  | shape, cells => String.ofList (plain ofReals shape cells)

def shownComplex (zs : List (Float × Float)) : String :=
  String.ofList (written ofComplex "complex128" [zs.length] zs)

def plainComplex (zs : List (Float × Float)) : String :=
  String.ofList (plain ofComplex [zs.length] zs)

end WaveNotebook.ArrayText
