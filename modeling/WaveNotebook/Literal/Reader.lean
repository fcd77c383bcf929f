import WaveNotebook.Datum
import WaveNotebook.Literal.Token

/-!
# Reading data literals

A literal is a number, a quoted text, `true`, `false`, a list in square brackets
or a record in curly ones. A record stands at the outermost place only, and its
keys are words or quoted texts. `read` folds the tokens of a text over the state
of a reader: what must come next, and which lists and which record are open. The
first token that the state refuses gives the position of the fault.

A reader by recursive descent is as deep in calls as lists and records are open.
`frames` counts the calls at the deepest place that the reader comes to, and
`readIn` gives up there if there is no room for so many.
-/

namespace WaveNotebook.Literal

/-- A list or record that is not closed yet, with what has been read of it. -/
inductive Frame
  | list (items : List Datum)
  | record (fields : Record) (key : String)

/-- What must come next; the innermost open frame is the first. -/
inductive State
  | value (frames : List Frame)
  /-- The first item of a list, or the end of the list. -/
  | item (frames : List Frame)
  /-- A value is complete. -/
  | after (d : Datum) (frames : List Frame)
  /-- The first key of a record, or the end of the record. -/
  | firstKey
  | key (fields : Record)
  | colon (fields : Record) (key : String)

def State.start : State := .value []

/-- A value begins. -/
def beginValue (frames : List Frame) (l : Lexeme) : Except LiteralFault State :=
  match l.token with
  | .numeral n => .ok (.after (.number n.toFloat) frames)
  | .quoted s => .ok (.after (.text (String.ofList s)) frames)
  | .unclosed => .error .unterminated
  | .word w =>
    if String.ofList w = "true" then .ok (.after (.bool true) frames)
    else if String.ofList w = "false" then .ok (.after (.bool false) frames)
    else .error (.unexpected l.first)
  | .mark '[' => .ok (.item frames)
  | .mark '{' => if frames.isEmpty then .ok .firstKey else .error .nestedRecord
  | .mark _ => .error (.unexpected l.first)

def beginKey (fields : Record) (l : Lexeme) : Except LiteralFault State :=
  match l.token with
  | .quoted s => .ok (.colon fields (String.ofList s))
  | .word w => .ok (.colon fields (String.ofList w))
  | .unclosed => .error .unterminated
  | _ => .error .keyExpected

/-- Whether a token is a given mark. -/
def Lexeme.isMark (l : Lexeme) (c : Char) : Bool :=
  match l.token with
  | .mark d => c == d
  | _ => false

/-- The state after one more token. -/
def State.step (s : State) (l : Lexeme) : Except LiteralFault State :=
  match s with
  | .value frames => beginValue frames l
  | .item frames =>
    if l.isMark ']' then .ok (.after (.list []) frames) else beginValue (.list [] :: frames) l
  | .after _ [] => .error .trailing
  | .after d (.list items :: frames) =>
    if l.isMark ',' then .ok (.value (.list (items ++ [d]) :: frames))
    else if l.isMark ']' then .ok (.after (.list (items ++ [d])) frames)
    else .error (.expected ']' l.first)
  | .after d (.record fields name :: frames) =>
    if l.isMark ',' then .ok (.key (Record.put fields name d))
    else if l.isMark '}' then .ok (.after (.record (Record.put fields name d)) frames)
    else .error (.expected '}' l.first)
  | .firstKey =>
    if l.isMark '}' then .ok (.after (.record []) []) else beginKey [] l
  | .key fields => beginKey fields l
  | .colon fields name =>
    if l.isMark ':' then .ok (.value [.record fields name]) else .error (.expected ':' l.first)

/-- The value that is complete at the end of the text. -/
def State.finish : State → Except LiteralFault Datum
  | .value _ | .item _ => .error (.unexpected none)
  | .after d [] => .ok d
  | .after _ (.list _ :: _) => .error (.expected ']' none)
  | .after _ (.record .. :: _) => .error (.expected '}' none)
  | .firstKey | .key _ => .error .keyExpected
  | .colon .. => .error (.expected ':' none)

/-- Runs a reader over tokens; `stop` is the position of the end of the text. -/
def State.run (stop : Nat) (s : State) : List Lexeme → Except LiteralError Datum
  | [] => s.finish.mapError (⟨·, stop⟩)
  | l :: ls =>
    match s.step l with
    | .ok s => s.run stop ls
    | .error fault => .error ⟨fault, l.position⟩

/-- The datum that a text denotes. -/
def read (text : List Char) : Except LiteralError Datum :=
  State.start.run text.length (lexemes 0 text)

/-! ## Nesting -/

/-- How many lists and records are open. -/
def State.depth : State → Nat
  | .value frames | .after _ frames => frames.length
  | .item frames => frames.length + 1
  | .firstKey | .key _ | .colon .. => 1

/-- The most lists and records that are open at once, up to the first token that is refused. -/
def State.peak (s : State) : List Lexeme → Nat
  | [] => s.depth
  | l :: ls =>
    match s.step l with
    | .ok next => max s.depth (next.peak ls)
    | .error _ => s.depth

/-- The most lists and records that are open at once when a text is read. -/
def depth (text : List Char) : Nat :=
  State.start.peak (lexemes 0 text)

/-- The frames of the calls that are open at the deepest place of a text: one for the value and
one for the list or record that it is, at each bracket. -/
def frames (text : List Char) : Nat :=
  2 * depth text

/-- What is read off a text if there is room for its frames; there may be no limit. -/
def within {α : Type} (room : Option Nat) (text : List Char) (r : Except Fault α) :
    Except Fault α :=
  if room.any (· < frames text) then .error (.numeric .recursion) else r

/-- The datum that a text denotes, read in a limited room. -/
def readIn (room : Option Nat) (text : List Char) : Except Fault Datum :=
  within room text ((read text).mapError Fault.literal)

end WaveNotebook.Literal
