import WaveNotebook.Matrix
import WaveNotebook.Metadata

/-!
# Benches

On a bench the operations of the library are tried out one by one. What an
operation makes lies at a place of its own from then on, and data name it by that
place: so a datum can hold the same thing twice, and a matrix that is edited
changes wherever it is held. A thing is made of data that name earlier places
only. Registers give names to data.
-/

namespace WaveNotebook

/-- What can lie on a bench. -/
inductive Thing
  | signal (s : Signal Float)
  | matrix (h : Handle)
  /-- The numbers of a matrix as they are whenever they are looked at. -/
  | view (h : Handle)
  | modes (signals : List Datum)
  | metrics (values : Record)
  | sweep (s : Sweep)
  | spectrum (zs : List (Cartesian Float))
  | tuple (items : List Datum)
  | kind (k : ValueKind)

/-- Written forms in parentheses, with a comma behind a single one. -/
def tupleText : List String → String
  | [s] => "(" ++ s ++ ",)"
  | ss => "(" ++ ", ".intercalate ss ++ ")"

/-- The type because of which one of some data cannot be a key. -/
def keylessAmong (items : List Datum) : Option String :=
  items.findSome? fun d =>
    match d.keyFault? with
    | some (.unhashable typeName) => some typeName
    | _ => none

namespace Thing

def gridDatum (g : Grid Float) : Datum :=
  .array [g.rows, g.cols] g.toRows.flatten

def parts (zs : List (Cartesian Float)) : List (Float × Float) :=
  zs.map fun z => (z.re, z.im)

/-- The label of a thing at a place. -/
def label (store : Store Float) (place : Nat) : Thing → Label
  | signal s => ⟨"Signal", s.shown, s.shown, none, place⟩
  | matrix h =>
    let g := store.grid h
    ⟨"Matrix", g.shown, String.ofList g.text, some "Matrix", place⟩
  | view h =>
    let d := gridDatum (store.grid h)
    ⟨d.typeName, d.shown, d.plain, some d.fullTypeName, place⟩
  | modes signals =>
    let form := "Modes(signals=" ++ tupleText (signals.map Datum.shown) ++ ")"
    ⟨"Modes", form, form, none, place⟩
  | metrics values =>
    let form := "Metrics(values=" ++ (Datum.record values).shown ++ ")"
    ⟨"Metrics", form, form, some (Datum.record []).typeName, place⟩
  | sweep s => ⟨"ChirpOptions", s.shown, s.shown, none, place⟩
  | spectrum zs =>
    let typeName := (Datum.array [] []).typeName
    ⟨typeName, ArrayText.shownComplex (parts zs), ArrayText.plainComplex (parts zs),
      some (Datum.fullName typeName), place⟩
  | tuple items =>
    let form := tupleText (items.map Datum.shown)
    ⟨"tuple", form, form, keylessAmong items, place⟩
  | kind k =>
    let form := "ValueKind." ++ k.name.toUpper
    ⟨"ValueKind", "<" ++ form ++ ": " ++ Datum.quotedText k.name ++ ">", form, none, place⟩

end Thing

structure Bench where
  things : Array Thing
  registers : Record
  session : Session

/-- What is done on a bench, and may fail. -/
abbrev Work := ExceptT Fault (StateM Bench)

namespace Bench

def empty : Bench := ⟨#[], [], .empty⟩

/-- The thing that a label stands for. -/
def thing? (b : Bench) (label : Label) : Option Thing :=
  label.place.bind fun place => b.things[place]?

/-- The thing that a datum is. -/
def thingOf? (b : Bench) : Datum → Option Thing
  | .object label => b.thing? label
  | _ => none

mutual

/-- A datum with the present labels of its things, and with the present numbers of its views. -/
def current (b : Bench) : Datum → Datum
  | .object label =>
    match b.thing? label, label.place with
    | some (.view h), _ => Thing.gridDatum (b.session.store.grid h)
    | some t, some place => .object (t.label b.session.store place)
    | _, _ => .object label
  | .list items => .list (currentItems b items)
  | .record fields => .record (currentFields b fields)
  | d => d

def currentItems (b : Bench) : List Datum → List Datum
  | [] => []
  | d :: ds => current b d :: currentItems b ds

def currentFields (b : Bench) : List (String × Datum) → List (String × Datum)
  | [] => []
  | f :: fs => (f.1, current b f.2) :: currentFields b fs

end

/-- The signal that a datum is. -/
def signal? (b : Bench) (d : Datum) : Option (Signal Float) :=
  match b.thingOf? d with
  | some (.signal s) => some s
  | _ => none

/-- The numbers among the values of metrics. -/
def numbersOf (values : Record) : List (String × Float) :=
  values.filterMap fun f =>
    match f.2 with
    | .number x => some (f.1, x)
    | _ => none

/-- A datum as the argument of an operation on values. -/
def argument (b : Bench) (d : Datum) : Argument :=
  match b.thingOf? d with
  | some (.signal s) => .value (.signal s)
  | some (.matrix h) => .value (.matrix h)
  | some (.modes signals) => .value (.modes (signals.filterMap b.signal?))
  | some (.metrics values) => .value (.metrics (numbersOf values))
  | some _ => .data d
  | none =>
    match d with
    | .integer n =>
      match Binary64.ofInt? n with
      | some x => .value (.number x)
      | none => .data d
    | d => .ofDatum d

/-- The datum in a register. -/
def register? (b : Bench) (name : String) : Option Datum :=
  b.registers.lookup name

/-- The bench with a datum in a register. -/
def keep (b : Bench) (name : String) (d : Datum) : Bench :=
  { b with registers := Record.put b.registers name d }

def clearNotices (b : Bench) : Bench :=
  { b with session := { b.session with notices := [] } }

end Bench

namespace Work

def lift {α : Type} (r : Except Fault α) : Work α :=
  ExceptT.mk (pure r)

def fail {α : Type} (fault : Fault) : Work α :=
  lift (.error fault)

/-- A computation of a notebook, done on a bench. -/
def ofRun {α : Type} (r : Run α) : Work α :=
  ExceptT.mk fun b =>
    let (result, session) := r.run b.session
    (result, { b with session := session })

/-- Puts a thing on the bench. -/
def make (t : Thing) : Work Datum :=
  ExceptT.mk fun b =>
    (.ok (.object (t.label b.session.store b.things.size)), { b with things := b.things.push t })

/-- A new matrix. -/
def makeMatrix (g : Grid Float) : Work Datum := do
  let (h, store) := (← get).session.store.alloc g
  modify fun b => { b with session := { b.session with store := store } }
  make (.matrix h)

def makeSignals : List (Signal Float) → Work (List Datum)
  | [] => return []
  | s :: ss => do
    let d ← make (.signal s)
    return d :: (← makeSignals ss)

/-- A value as a datum. -/
def ofValue : Value → Work Datum
  | .number x => return .number x
  | .signal s => make (.signal s)
  | .matrix h => make (.matrix h)
  | .function b => return .ofType "Builtin" b.shown
  | .modes signals => do make (.modes (← makeSignals signals))
  | .metrics values => make (.metrics (values.map fun m => (m.1, .number m.2)))

end Work

end WaveNotebook
