import WaveNotebook.Literal.Shape
import WaveNotebook.Scan.Paren
import WaveNotebook.Scan.Split

/-!
# Expressions

An expression is a number, a name, or a call of a function or of a method of a
named receiver, whose arguments are expressions again; an argument of a method
can be a data literal. Reading never fails. A text that is no expression becomes
a fault at its place, which shows when that place is evaluated: so the arguments
before it have their effects first. Of a data literal the frames that its reader
takes are kept, since there may be no room for them where it is evaluated.
-/

namespace WaveNotebook

inductive Expr
  | number (x : Float)
  | name (text : String)
  /-- The text of the arguments stays, since a builtin may read it as one literal. -/
  | call (callee : String) (text : List Char) (args : List Expr)
  | method (receiver name : String) (args : List Expr)
  | data (d : Datum) (frames : Nat)
  /-- A text that is no expression. -/
  | malformed (f : TextFault)
  /-- The text of a data literal that is none. -/
  | badLiteral (e : LiteralError) (frames : Nat)
  /-- A place that is nested deeper than there are frames for. -/
  | tooDeep

namespace Expr

/-- The pieces between the commas of an argument text, none of which may be blank. -/
def splitArguments (text : List Char) : Except TextFault (List (List Char)) := do
  if text.isEmpty then return []
  let pieces := (← Scan.splitTopLevel ',' text).map Text.trim
  if pieces.any List.isEmpty then .error .emptyArgument else return pieces

/-- The texts before and after the last dot. -/
def splitLastDot (s : List Char) : Option (List Char × List Char) :=
  if s.contains '.' then
    let after := (s.reverse.takeWhile (· != '.')).reverse
    some (s.take (s.length - after.length - 1), after)
  else none

/-- The parts of a call: the text before the parentheses, and that between them. -/
def callParts (s : List Char) : Except TextFault (List Char × List Char) := do
  let start := (s.takeWhile (· != '(')).length
  let stop ← Scan.matchingParen s start
  let behind := Text.trim (s.drop (stop + 1))
  if !behind.isEmpty then .error (.afterCall (String.ofList behind))
  else
    let callee := Text.trim (s.take start)
    if callee.isEmpty then .error (.notEvaluable (String.ofList s))
    else return (callee, Text.trim ((s.take stop).drop (start + 1)))

/-- The arguments of a call, or the fault of their text as the only one. -/
def argumentsWith (read : List Char → Expr) (text : List Char) : List Expr :=
  match splitArguments text with
  | .ok pieces => pieces.map read
  | .error f => [.malformed f]

/-- Whether a method argument is a data literal. -/
def isLiteral (s : List Char) : Bool :=
  match s with
  | c :: _ => c == '[' || c == '{' || Scan.isQuote c
  | [] => false

def ofLiteral (s : List Char) : Expr :=
  match Literal.read s with
  | .ok d => .data d (Literal.frames s)
  | .error e => .badLiteral e (Literal.frames s)

/-- Reads an expression that is at most so long. -/
def readWithin : Nat → List Char → Expr
  | 0, _ => .malformed .emptyExpression
  | bound + 1, s =>
    let s := Text.trim s
    if s.isEmpty then .malformed .emptyExpression
    else if s.contains '(' then
      match callParts s with
      | .error f => .malformed f
      | .ok (callee, text) =>
        match splitLastDot callee with
        | some (receiver, member) =>
          .method (String.ofList (Text.trim receiver)) (String.ofList (Text.trim member))
            (argumentsWith
              (fun s => if isLiteral s then ofLiteral s else readWithin bound s) text)
        | none => .call (String.ofList callee) text (argumentsWith (readWithin bound) text)
    else
      match readNumber? s with
      | some x => .number x
      | none => .name (String.ofList s)

/-- The expression that a text is; the text of an argument is shorter than that of its call. -/
def read (s : List Char) : Expr :=
  readWithin s.length s

end Expr

end WaveNotebook
