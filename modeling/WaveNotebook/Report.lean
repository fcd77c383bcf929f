import WaveNotebook.Datum

/-!
# Error reports

A report is a fault as it is shown: its category, its text, its kind and the
report of its cause. A report can also be made by hand, with another kind than
that of its category.
-/

namespace WaveNotebook

inductive Report
  | mk (category : Category) (message : String) (kind : Option ErrorKind)
    (cause : Option Report) (position : Option Int)

namespace Report

def category : Report → Category
  | mk c _ _ _ _ => c

def message : Report → String
  | mk _ m _ _ _ => m

def kind : Report → Option ErrorKind
  | mk _ _ k _ _ => k

def cause : Report → Option Report
  | mk _ _ _ c _ => c

def position : Report → Option Int
  | mk _ _ _ _ p => p

/-- A report with a given kind, or with that of its category. -/
def make (category : Category) (message : String) (kind : Option ErrorKind)
    (cause : Option Report) : Report :=
  mk category message (kind.or category.kind?) cause none

/-- The kind of error that a datum names, if it is given. -/
def kindOf (d : Datum) : Except Fault (Option ErrorKind) :=
  match d with
  | .null => .ok none
  | d =>
    match d.text?.bind ErrorKind.ofName? with
    | some kind => .ok (some kind)
    | none => .error (.numeric (.notAmong d.shown "ErrorKind"))

/-- A report with what is given: the kind may be missing. A key that is missing is reported in
written form. -/
def ofData (category : Category) (message : String) (kind : Datum) (cause : Option Report) :
    Except Fault Report := do
  let message := if category = .missingKey then Datum.quotedText message else message
  return make category message (← kindOf kind) cause

/-- The report of a literal that goes wrong at a position. -/
def literal (message : String) (position : Int) : Report :=
  mk .literalSyntax (message ++ " at position " ++ intText position)
    (Category.kind? .literalSyntax) none (some position)

end Report

namespace Fault

/-- The report of a fault that no line of code encloses. -/
def leafReport (f : Fault) (cause : Option Report) : Report :=
  .mk f.category f.message f.category.kind? cause (f.position?.map Int.ofNat)

/-- The report of a fault with that of its cause. -/
def report : Fault → Report
  | line number source cause => leafReport (line number source cause) (some cause.report)
  | f => leafReport f (f.cause?.map fun cause => leafReport cause
      (cause.cause?.map fun inner => leafReport inner none))

end Fault

end WaveNotebook
