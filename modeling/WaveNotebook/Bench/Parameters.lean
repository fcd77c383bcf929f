import WaveNotebook.Datum

/-!
# Parameters

Arguments are given by their place or by their name. Those with a place are taken
first; then every name must be that of a parameter that has nothing yet, there
must be no more arguments than places, and no required one may be missing. The
first of these rules that is broken decides the fault.
-/

namespace WaveNotebook

/-- The parameters of an operation. -/
structure Signature where
  function : String
  /-- Whether the receiver counts as an argument. -/
  receiver : Bool
  required : List String
  optional : List String
  /-- Parameters that have a name but no place. -/
  named : List String

namespace Signature

/-- The parameters with a place. -/
def placed (s : Signature) : List String :=
  s.required ++ s.optional

/-- The arguments with the names of their parameters. -/
def ofPlaces (s : Signature) (args : List Datum) : Record :=
  s.placed.zip args

/-- Adds an argument that is given by name. -/
def addNamed (s : Signature) (found : Record) (arg : String × Datum) :
    Except SignatureFault Record :=
  if !(s.placed ++ s.named).contains arg.1 then .error (.unknown s.function arg.1)
  else if (found.lookup arg.1).isSome then .error (.repeated s.function arg.1)
  else .ok (found ++ [arg])

/-- The fault of too many arguments, if there are too many. -/
def surplus? (s : Signature) (args : List Datum) (found : Record) : Option SignatureFault :=
  let own := if s.receiver then 1 else 0
  if args.length ≤ s.placed.length then none
  else
    let named := (s.named.filter fun name => (found.lookup name).isSome).length
    some (.surplus s.function (own + s.required.length) (own + s.placed.length)
      (own + args.length) named)

/-- The parameters with their arguments, apart from those that have none. -/
def bind (s : Signature) (args : List Datum) (named : Record) : Except SignatureFault Record := do
  let found ← named.foldlM s.addNamed (s.ofPlaces args)
  match s.surplus? args found with
  | some fault => .error fault
  | none =>
    match s.required.filter fun name => (found.lookup name).isNone with
    | [] => return found
    | missing => .error (.missing s.function missing)

end Signature

end WaveNotebook
