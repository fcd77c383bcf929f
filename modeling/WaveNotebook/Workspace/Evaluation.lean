import WaveNotebook.Method.Standard
import WaveNotebook.Workspace.Expression

/-!
# Evaluation

A name stands for what it is bound to, else for the builtin of that name. The
arguments of a call are evaluated from left to right, after the callee has been
found and before their number is checked.

Evaluation calls itself for each call among the arguments of a call. How deep it
is at a place depends on the expression alone: in a limited room, an expression
has the value of the same expression without the places that are too deep.
-/

namespace WaveNotebook

/-- What the evaluation of an expression reads: settings, methods and bindings in the order of
first assignment. -/
structure Scope where
  config : Config
  methods : MethodTable
  bindings : List (String × Value)

namespace Scope

def builtin? (name : String) : Option Builtin :=
  Builtin.standard.find? (·.name == name)

def resolve (scope : Scope) (name : String) : Option Value :=
  (scope.bindings.lookup name).or ((builtin? name).map .function)

end Scope

/-- Runs a builtin on arguments of any number. -/
def Builtin.apply (b : Builtin) (config : Config) (args : List Argument) : Run Value := do
  let data ← Run.toData args
  match b.action, data with
  | .tone _, [] => .fail (.call (.missingArgument b.name "freq"))
  | .tone _, [_] => .fail (.call (.missingArgument b.name "duration"))
  | .tone wave, [frequency, duration] =>
    .signal <$> Run.lift
      (Signal.tone wave frequency duration (.number config.rate) (.number 1.0) (.number 0.0))
  | .tone wave, [frequency, duration, rate] =>
    .signal <$> Run.lift (Signal.tone wave frequency duration rate (.number 1.0) (.number 0.0))
  | .sweep, [.record options] =>
    .signal <$> Run.lift (do (← Sweep.ofOptions options (.number config.rate)).signal)
  | .sweep, [_] => .fail (.text .notOptions)
  | .sweep, [] => .fail (.call (.missingArgument b.name "options"))
  | .grid, [rows] => do Run.newMatrix (← Run.lift (Grid.ofDatum rows))
  | .grid, [] => .fail (.call (.missingArgument b.name "grid"))
  | _, _ => .fail (.call (.surplusArguments b.name))

/-- The single argument of a builtin that reads its text as one literal. -/
def literalArgument (style : ArgumentStyle) (text : List Char) : Except Fault Datum :=
  match style with
  | .grid => do
    let rows ← Literal.readGrid text
    return .list (rows.map fun row => .list (row.map .number))
  | _ => do
    if text.head? ≠ some '{' then .error (.text .notOptions)
    else return .record (← Literal.readOptions text)

namespace Expr

mutual

def eval (scope : Scope) : Expr → Run Argument
  | .number x => return .value (.number x)
  | .data d _ => return .ofDatum d
  | .name text =>
    match scope.resolve text with
    | some v => return .value v
    | none => .fail (.text (.notEvaluable text))
  | .call callee text args =>
    match scope.resolve callee with
    | some (.function b) =>
      match b.style with
      | .positional => do
        let args ← evalAll scope args
        .value <$> b.apply scope.config args
      | style => do
        let d ← Run.lift (literalArgument style text)
        .value <$> b.apply scope.config [.data d]
    | _ => .fail (.name (.functionName callee))
  | .method receiver member args =>
    match scope.resolve receiver with
    | none => .fail (.name (.variableName receiver))
    | some v => do
      let m ← Run.lift (scope.methods.lookup (.value v) member)
      let args ← evalAll scope args
      .value <$> m.call v args scope.config
  | .malformed f => .fail (.text f)
  | .badLiteral e _ => .fail (.literal e)
  | .tooDeep => .fail (.numeric .recursion)

def evalAll (scope : Scope) : List Expr → Run (List Argument)
  | [] => return []
  | e :: es => do
    let a ← eval scope e
    let args ← evalAll scope es
    return a :: args

end

/-! ## Nesting -/

/-- The frames that are open between a call and one of its arguments. -/
def callFrames : Nat := 5

/-- Whether the text of a call is read as one literal. -/
def readsText (scope : Scope) (callee : String) (text : List Char) : Bool :=
  match scope.resolve callee with
  | some (.function b) =>
    match b.style with
    | .positional => false
    | .grid => true
    | .options => text.head? == some '{'
  | _ => false

mutual

/-- An expression with the places cut off that so many frames do not suffice for. -/
def cut (scope : Scope) (room : Nat) : Expr → Expr
  | .call callee text args =>
    if room < callFrames then .tooDeep
    else if readsText scope callee text then
      if room - callFrames < Literal.frames text then .tooDeep else .call callee text args
    else .call callee text (cutAll scope (room - callFrames) args)
  | .method receiver member args =>
    if room < callFrames then .tooDeep
    else .method receiver member (cutAll scope (room - callFrames) args)
  | .data d frames => if room < frames then .tooDeep else .data d frames
  | .badLiteral e frames => if room < frames then .tooDeep else .badLiteral e frames
  | .number x => .number x
  | .name text => .name text
  | .malformed f => .malformed f
  | .tooDeep => .tooDeep

def cutAll (scope : Scope) (room : Nat) : List Expr → List Expr
  | [] => []
  | e :: es => cut scope room e :: cutAll scope room es

end

/-- The part of an expression that is evaluated in a limited room, or all of it. -/
def limited (scope : Scope) (room : Option Nat) (e : Expr) : Expr :=
  match room with
  | none => e
  | some n => e.cut scope n

/-- The value of an expression. -/
def value (scope : Scope) (e : Expr) : Run Value := do
  match ← e.eval scope with
  | .value v => return v
  | .data d => .fail (.numeric (.type (.notAValue d.typeName)))

end Expr

end WaveNotebook
