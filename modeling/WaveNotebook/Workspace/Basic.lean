import WaveNotebook.Scan.Comment
import WaveNotebook.Workspace.Evaluation

/-!
# Workspaces

A workspace holds what a notebook session has made so far: bindings, matrices and
the history of its statements. Code is run line by line. A blank line or one that
starts with the comment marker does nothing; a failing line ends the run and
binds nothing, while the lines before it keep their effects; any other line is
added to the history and prints one result.
-/

namespace WaveNotebook

structure Workspace where
  scope : Scope
  history : List String
  session : Session

namespace Workspace

def new (config : Config) (methods : MethodTable) : Workspace :=
  ⟨⟨config, methods, []⟩, [], .empty⟩

/-- The bound names in the order of their first assignment. -/
def names (w : Workspace) : List String :=
  w.scope.bindings.map (·.1)

def value? (w : Workspace) (name : String) : Option Value :=
  w.scope.resolve name

/-- Times and samples of a signal; nothing else can be plotted. -/
def plot? (w : Workspace) (name : String) : Option (List Float × List Float) :=
  match w.value? name with
  | some (.signal s) => some (s.times, s.samples)
  | _ => none

/-- Evaluates an expression without binding it. The room is for the frames of nested calls. -/
def evaluate (w : Workspace) (text : List Char) (room : Option Nat := none) :
    Except Fault Value × Workspace :=
  let e := (Expr.read text).limited w.scope room
  let (result, session) := (e.value w.scope).run w.session
  (result, { w with session := session })

def bind (w : Workspace) (name : String) (v : Value) : Workspace :=
  { w with scope := { w.scope with bindings := Record.put w.scope.bindings name v } }

/-- What is printed for a value. -/
def printed (w : Workspace) (v : Value) : List Char :=
  v.text w.session.store w.scope.config.preview.toInt

/-- The pieces of a text between a separator. -/
def joinWith (sep : Char) (pieces : List (List Char)) : List Char :=
  [sep].intercalate pieces

/-- The name and the expression of an assignment; neither is checked for a plain expression. -/
def assignment (line : List Char) : Except Fault (Option String × List Char) := do
  match (Scan.splitTopLevel '=' line).mapError Fault.text with
  | .error fault => .error fault
  | .ok (target :: piece :: pieces) =>
    let name := Text.trim target
    let expression := Text.trim (joinWith '=' (piece :: pieces))
    if name.isEmpty || expression.isEmpty then .error (.text .assignment)
    else if !Text.isPlainName name then
      .error (.text (.assignmentTarget (String.ofList name)))
    else return (some (String.ofList name), expression)
  | .ok _ => return (none, line)

/-- Runs a statement that is not blank and holds no comment. -/
def statement (w : Workspace) (line : List Char) (room : Option Nat := none) :
    Except Fault (List Char) × Workspace :=
  match assignment line with
  | .error fault => (.error fault, w)
  | .ok (target, expression) =>
    match w.evaluate expression room with
    | (.error fault, w) => (.error fault, w)
    | (.ok v, w) =>
      match target with
      | none => (.ok (w.printed v), w)
      | some name =>
        let w := w.bind name v
        (.ok (name.toList ++ [' ', '=', ' '] ++ w.printed v), w)

/-- The fault of a line. Exhausted memory is an allocation fault of the line's computation. A
fault that no statement should have is passed on as it is, and so are frames that run out. -/
def lineFault (number : Nat) (line : List Char) (fault : Fault) : Fault :=
  let cause := match fault with
    | .numeric f => if f.category = .exhausted then .outOfMemory f else fault
    | fault => fault
  if fault.category.isStatementCause then .line number (String.ofList line) cause else fault

/-- Runs one line of code. A line that does something has a result and is remembered. -/
def step (w : Workspace) (number : Nat) (raw : List Char) (room : Option Nat := none) :
    Except Fault (Option (List Char)) × Workspace :=
  let line := Text.trim raw
  let marker := w.scope.config.marker.toList
  if line.isEmpty || marker.isPrefixOf line then (.ok none, w)
  else
    let code := Scan.stripComment marker line
    if code.isEmpty then (.ok none, w)
    else
      match w.statement code room with
      | (.error fault, w) => (.error (lineFault number line fault), w)
      | (.ok out, w) => (.ok (some out), { w with history := w.history ++ [String.ofList line] })

/-- Runs lines from a given number on, up to the first that fails. -/
def run (w : Workspace) (number : Nat) (raws : List (List Char)) (room : Option Nat := none) :
    Except Fault (List (List Char)) × Workspace :=
  match raws with
  | [] => (.ok [], w)
  | raw :: rest =>
    match w.step number raw room with
    | (.error fault, w) => (.error fault, w)
    | (.ok out, w) =>
      let (outs, w) := w.run (number + 1) rest room
      (outs.map (out.toList ++ ·), w)

/-- The lines of a text; a text without a line break is one line. -/
def lines : List Char → List (List Char)
  | [] => [[]]
  | c :: cs => if c = '\n' then [] :: lines cs else Scan.extend c (lines cs)

/-- Runs code and prints a line for each result. -/
def execute (w : Workspace) (code : List Char) (room : Option Nat := none) :
    Except Fault (List Char) × Workspace :=
  let (outs, w) := w.run 1 (lines code) room
  (outs.map fun outs => Text.trimRight (joinWith '\n' outs), w)

/-- The workspace without the notices so far. -/
def clearNotices (w : Workspace) : Workspace :=
  { w with session := { w.session with notices := [] } }

end Workspace

end WaveNotebook
