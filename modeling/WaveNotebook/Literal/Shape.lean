import WaveNotebook.Literal.Reader

/-!
# Literals of a given shape

The text of a matrix is a non-empty list of non-empty lists of numbers, all of
one length. The text of an option bag is a record.
-/

namespace WaveNotebook.Literal

/-- The numbers of a list that holds nothing else. -/
def numbers? (items : List Datum) : Option (List Float) :=
  items.mapM fun d =>
    match d with
    | .number x => some x
    | _ => none

/-- A row of a matrix: a non-empty list of numbers. -/
def row? : Datum → Option (List Float)
  | .list items => if items.isEmpty then none else numbers? items
  | _ => none

def readGrid (text : List Char) : Except Fault (List (List Float)) :=
  match read text with
  | .error e => .error (.gridText (some e))
  | .ok (.list items) =>
    match items.mapM row? with
    | none | some [] => .error (.gridText none)
    | some (row :: rows) =>
      if rows.all (·.length == row.length) then .ok (row :: rows)
      else .error (.text .rowLengths)
  | .ok _ => .error (.gridText none)

def readOptions (text : List Char) : Except Fault Record :=
  match read text with
  | .error e => .error (.optionsText (some e))
  | .ok (.record fields) => .ok fields
  | .ok _ => .error (.optionsText none)

end WaveNotebook.Literal
