import WaveNotebook.Signal.Analysis
import WaveNotebook.Store

/-!
# Values

A notebook knows six kinds of values. Signals, modes and metrics never change; a
matrix is a handle into the store. An argument of a call is a value or a piece of
plain data, where a number counts as a value.
-/

namespace WaveNotebook

/-- How the text between the parentheses of a builtin is read. -/
inductive ArgumentStyle
  /-- Expressions between commas. -/
  | positional
  /-- A single grid of numbers. -/
  | grid
  /-- A single option bag. -/
  | options
  deriving DecidableEq, Repr

namespace ArgumentStyle

def name : ArgumentStyle → String
  | positional => "positional"
  | grid => "grid"
  | options => "options"

def all : List ArgumentStyle := [positional, grid, options]

def ofName? (s : String) : Option ArgumentStyle :=
  all.find? (·.name == s)

def ofDatum (d : Datum) : Except Fault ArgumentStyle :=
  match d.text?.bind ofName? with
  | some style => .ok style
  | none => .error (.numeric (.notAmong d.shown "ArgumentStyle"))

end ArgumentStyle

/-- What a builtin does. -/
inductive BuiltinAction
  | tone (wave : Waveform)
  | sweep
  | grid
  deriving DecidableEq, Repr

structure Builtin where
  name : String
  action : BuiltinAction
  style : ArgumentStyle
  deriving DecidableEq, Repr

namespace Builtin

/-- A builtin with a name that is not blank and something to do. -/
def make (name : Datum) (action : Option BuiltinAction) (style : ArgumentStyle) :
    Except Fault Builtin :=
  match name with
  | .text s =>
    if s.toList.all Text.isBlank then .error (.call .builtinName)
    else
      match action with
      | some action => .ok ⟨s, action, style⟩
      | none => .error (.call (.builtinAction s))
  | _ => .error (.call .builtinName)

/-- The builtins of every notebook. -/
def standard : List Builtin :=
  [⟨"sine", .tone .sine, .positional⟩, ⟨"square", .tone .square, .positional⟩,
    ⟨"chirp", .sweep, .options⟩, ⟨"matrix", .grid, .grid⟩]

/-- The written form of a builtin in messages. -/
def shown (b : Builtin) : String :=
  "Builtin(name=" ++ Datum.quotedText b.name ++ ", arguments=<ArgumentStyle." ++
    b.style.name.toUpper ++ ": '" ++ b.style.name ++ "'>)"

end Builtin

inductive ValueKind
  | number | signal | matrix | function | modes | metrics
  deriving DecidableEq, Repr

namespace ValueKind

def name : ValueKind → String
  | number => "number"
  | signal => "Signal"
  | matrix => "Matrix"
  | function => "function"
  | modes => "Modes"
  | metrics => "Metrics"

def all : List ValueKind := [number, signal, matrix, function, modes, metrics]

def ofName? (s : String) : Option ValueKind :=
  all.find? (·.name == s)

def ofDatum (d : Datum) : Except Fault ValueKind :=
  match d.text?.bind ofName? with
  | some kind => .ok kind
  | none => .error (.numeric (.notAmong d.shown "ValueKind"))

end ValueKind

inductive Value
  | number (x : Float)
  | signal (s : Signal Float)
  | matrix (h : Handle)
  | function (b : Builtin)
  | modes (signals : List (Signal Float))
  | metrics (values : List (String × Float))

/-- Signals as modes. -/
def modesShown (signals : List (Signal Float)) : String :=
  match signals with
  | [s] => "Modes(signals=(" ++ s.shown ++ ",))"
  | ss => "Modes(signals=(" ++ ", ".intercalate (ss.map Signal.shown) ++ "))"

namespace Value

def kind : Value → ValueKind
  | number _ => .number
  | signal _ => .signal
  | matrix _ => .matrix
  | function _ => .function
  | modes _ => .modes
  | metrics _ => .metrics

/-- What the notebook prints for a value; a signal shows so many samples. -/
def text (store : Store Float) (preview : Int) : Value → List Char
  | number x => valueText x
  | signal s => s.text preview
  | matrix h => (store.grid h).text
  | function _ => "[Function]".toList
  | modes signals => ("Modes[" ++ natText signals.length ++ " modes]").toList
  | metrics values =>
    '{' :: [',', ' '].intercalate
      (values.map fun m => m.1.toList ++ ':' :: ' ' :: valueText m.2) ++ ['}']

/-- The written form of a value in messages. -/
def shown (store : Store Float) : Value → String
  | number x => floatText x
  | signal s => s.shown
  | matrix h => (store.grid h).shown
  | function b => b.shown
  | modes signals => modesShown signals
  | metrics values =>
    "Metrics(values=" ++ (Datum.record (values.map fun m => (m.1, .number m.2))).shown ++ ")"

/-- The name of the type of a value. -/
def typeName : Value → String
  | number _ => "float"
  | signal _ => "Signal"
  | matrix _ => "Matrix"
  | function _ => "Builtin"
  | modes _ => "Modes"
  | metrics _ => "Metrics"

/-- The size of the numbers that a value holds. -/
def bytes (store : Store Float) : Value → Nat
  | signal s => 8 * s.size
  | matrix h => 8 * ((store.grid h).rows * (store.grid h).cols)
  | modes signals => signals.foldl (fun total s => total + 8 * s.size) 0
  | metrics values => 8 * values.length
  | number _ | function _ => 8

/-- A value as a loosely typed argument. -/
def toDatum (store : Store Float) : Value → Datum
  | number x => .number x
  | v => .ofType v.typeName (v.shown store)

end Value

/-- Looks up a metric by name. -/
def metric (values : List (String × Float)) (name : String) : Except Fault Float :=
  match values.lookup name with
  | some x => .ok x
  | none => .error (.name (.metric name))

inductive Argument
  | value (v : Value)
  | data (d : Datum)

namespace Argument

def ofDatum : Datum → Argument
  | .number x => value (.number x)
  | d => data d

def kind : Argument → Except Fault ValueKind
  | value v => .ok v.kind
  | data (.number _) | data (.integer _) => .ok .number
  | data d => .error (.numeric (.type (.notAValue d.typeName)))

/-- The kind of an argument, or the name of its type if it is no value. -/
def describe : Argument → String
  | value v => v.kind.name
  | data (.number _) | data (.integer _) => ValueKind.number.name
  | data d => d.typeName

def toDatum (store : Store Float) : Argument → Datum
  | value v => v.toDatum store
  | data d => d

/-- What the notebook prints for an argument that is a value. -/
def text (store : Store Float) (preview : Int) : Argument → Except Fault (List Char)
  | value v => .ok (v.text store preview)
  | data (.number x) => .ok (valueText x)
  | data (.integer n) => (valueText <$> Datum.doubleOf n).mapError Fault.numeric
  | data d => .error (.numeric (.type (.notAValue d.typeName)))

/-- The signals among arguments that are nothing else. -/
def signals (args : List Argument) : Except Fault (List (Signal Float)) :=
  match args.mapM fun a => match a with
    | value (.signal s) => some s
    | _ => none with
  | some signals => .ok signals
  | none => .error (.signal .notSignals)

end Argument

/-- The sum of a signal and an argument, which must be a signal too. -/
def Signal.addArgument (s : Signal Float) : Argument → Except Fault (Signal Float)
  | .value (.signal t) => s.add t
  | _ => .error (.signal .addend)

end WaveNotebook
