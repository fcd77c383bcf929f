import WaveNotebook.Fault.Category

/-!
# Faults of notebook texts

Malformed literals, statements that cannot be taken apart, and names that stand
for nothing.
-/

namespace WaveNotebook

/-- Faults of a data literal; `none` stands for the end of the text. -/
inductive LiteralFault
  | expected (wanted : Char) (found : Option Char)
  | unexpected (found : Option Char)
  | trailing
  | nestedRecord
  | keyExpected
  | unterminated

namespace LiteralFault

def foundText : Option Char → String
  | some c => c.toString
  | none => "end of input"

def message : LiteralFault → String
  | expected wanted found =>
    "Expected '" ++ wanted.toString ++ "', found '" ++ foundText found ++ "'"
  | unexpected found => "Unexpected '" ++ foundText found ++ "'"
  | trailing => "Unexpected trailing input"
  | nestedRecord => "Nested objects are not supported"
  | keyExpected => "Expected an object key"
  | unterminated => "Unterminated string"

end LiteralFault

/-- A fault of a literal with the place where it shows. -/
structure LiteralError where
  fault : LiteralFault
  position : Nat

def LiteralError.message (e : LiteralError) : String :=
  e.fault.message ++ " at position " ++ natText e.position

/-- Faults of the text of a statement or a call. -/
inductive TextFault
  | unmatched (bracket : Char)
  | openQuote
  | emptyExpression
  | notEvaluable (text : String)
  | assignment
  | assignmentTarget (name : String)
  | afterCall (text : String)
  | emptyArgument
  | notOptions
  | rowLengths

def TextFault.message : TextFault → String
  | unmatched c =>
    if c = '(' ∨ c = ')' then "Unmatched parentheses" else "Unmatched '" ++ c.toString ++ "'"
  | openQuote => "Unterminated string literal"
  | emptyExpression => "Empty expression"
  | notEvaluable text => "Cannot evaluate expression: '" ++ text ++ "'"
  | assignment => "Invalid assignment"
  | assignmentTarget name => "Invalid assignment target '" ++ name ++ "'"
  | afterCall text => "Unexpected input after call: '" ++ text ++ "'"
  | emptyArgument => "Empty argument in call"
  | notOptions => "Invalid options object format"
  | rowLengths => "Invalid matrix data format: rows must have equal length"

/-- Names that stand for nothing. -/
inductive NameFault
  | variableName (name : String)
  | functionName (name : String)
  | methodName (name kind : String)
  | metric (name : String)

def NameFault.message : NameFault → String
  | variableName name => "Variable '" ++ name ++ "' is not defined"
  | functionName name => "Function '" ++ name ++ "' is not defined"
  | methodName name kind => "Method '" ++ name ++ "' not found on " ++ kind
  | metric name => "Metric '" ++ name ++ "' was not computed"

end WaveNotebook
