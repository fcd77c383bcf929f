import WaveNotebook.Document.Problem

/-!
# Tokens of a document

Tokens are the words and brackets of a document. Collections written by
indentation have start and end tokens of their own, although no character stands
for them. A message names a token by the characters that it always has, or by
what it is.
-/

namespace WaveNotebook.Document

/-- How a scalar is written: a plain one can stand for more than a text. -/
inductive ScalarStyle
  | plain | marked
  deriving DecidableEq, Repr

/-- A tag: a handle, which stands for the start of longer tags, and the rest. -/
structure TagName where
  handle : Option (List Char)
  suffix : List Char
  deriving DecidableEq, Repr

inductive Directive
  | version (major minor : Nat)
  | handle (handle start : List Char)
  | other
  deriving DecidableEq, Repr

inductive TokenForm
  | directive (d : Directive)
  | documentStart | documentEnd | streamEnd
  | itemsStart | fieldsStart | blockEnd
  | flowItemsStart | flowItemsEnd | flowFieldsStart | flowFieldsEnd
  | item | separator | key | value
  | reference (name : List Char)
  | anchor (name : List Char)
  | tag (name : TagName)
  | scalar (text : List Char) (style : ScalarStyle)
  deriving DecidableEq, Repr

def TokenForm.name : TokenForm → String
  | directive _ => "<directive>"
  | documentStart => "<document start>"
  | documentEnd => "<document end>"
  | streamEnd => "<stream end>"
  | itemsStart => "<block sequence start>"
  | fieldsStart => "<block mapping start>"
  | blockEnd => "<block end>"
  | flowItemsStart => "["
  | flowItemsEnd => "]"
  | flowFieldsStart => "\x7b"
  | flowFieldsEnd => "\x7d"
  | item => "-"
  | separator => ","
  | key => "?"
  | value => ":"
  | reference _ => "<alias>"
  | anchor _ => "<anchor>"
  | tag _ => "<tag>"
  | scalar .. => "<scalar>"

/-- A token with the places where it starts and ends. -/
structure Token where
  form : TokenForm
  start : Mark
  stop : Mark

end WaveNotebook.Document
