import WaveNotebook.Config.Basic
import WaveNotebook.Session
import WaveNotebook.Text.Identifier

/-!
# Method tables

A table holds the methods of each kind of receiver. A name is registered once for
a kind and never replaced. Only signals, matrices, modes and metrics have
methods.
-/

namespace WaveNotebook

/-- What a method does with its receiver, its arguments and the settings. -/
abbrev Handler := Value → List Argument → Config → Run Value

structure Method where
  name : String
  handler : Handler
  least : Int
  most : Int

namespace Method

/-- Whether a method takes so many arguments. -/
def takes (m : Method) (count : Nat) : Bool :=
  m.least ≤ count && count ≤ m.most

/-- Runs the handler if the number of arguments fits. -/
def call (m : Method) (receiver : Value) (args : List Argument) (config : Config) : Run Value :=
  if m.takes args.length then m.handler receiver args config
  else .fail (.call (.arity m.name m.least m.most args.length))

end Method

/-- The entries in the order of their registration. -/
structure MethodTable where
  entries : List (ValueKind × Method)

namespace MethodTable

def empty : MethodTable := ⟨[]⟩

def receiverKinds : List ValueKind := [.signal, .matrix, .modes, .metrics]

/-- The entry of a name for a kind. -/
def find? (t : MethodTable) (kind : ValueKind) (name : String) : Option Method :=
  (t.entries.find? fun e => e.1 == kind && e.2.name == name).map (·.2)

/-- The table with one more entry. Without a greatest number of arguments the method takes the
least number only. -/
def register (t : MethodTable) (kind : ValueKind) (name : Datum) (handler : Option Handler)
    (least : Int) (most : Option Int) : Except Fault MethodTable :=
  if !receiverKinds.contains kind then .error (.call (.receiverKind kind.name))
  else
    match name with
    | .text s =>
      if !Text.isIdentifier s.toList then .error (.call (.methodName name.shown))
      else
        match handler with
        | none => .error (.call (.handler kind.name s))
        | some handler =>
          if (t.find? kind s).isSome then .error (.call (.duplicate s kind.name))
          else if most.getD least < least then .error (.call (.arityRange kind.name s))
          else .ok ⟨t.entries ++ [(kind, ⟨s, handler, least, most.getD least⟩)]⟩
    | _ => .error (.call (.methodName name.shown))

/-- The names for a kind in the order of their characters. -/
def names (t : MethodTable) (kind : ValueKind) : List String :=
  ((t.entries.filter (·.1 == kind)).map (·.2.name)).mergeSort fun a b => decide (a ≤ b)

/-- The method of a receiver by what should be its name. -/
def lookupDatum (t : MethodTable) (receiver : Argument) (name : Datum) : Except Fault Method := do
  let kind ← receiver.kind
  match ← lookupName (t.find? kind) name with
  | some m => return m
  | none => .error (.name (.methodName name.plain kind.name))

/-- The method of a receiver by its name. -/
def lookup (t : MethodTable) (receiver : Argument) (name : String) : Except Fault Method := do
  let kind ← receiver.kind
  match t.find? kind name with
  | some m => return m
  | none => .error (.name (.methodName name kind.name))

end MethodTable

end WaveNotebook
