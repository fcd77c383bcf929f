import WaveNotebook.Document.Bytes
import WaveNotebook.Document.Cursor
import WaveNotebook.Number.Layout
import WaveNotebook.Text.Quoted

/-!
# Malformed documents

A problem is found while characters are read, cut into tokens, arranged in
collections, joined to one document, or turned into data. It comes with its place
and, for a part of the document that has begun before, with the place where that
part starts.
-/

namespace WaveNotebook.Document

inductive Stage
  | reading | scanning | parsing | composing | constructing
  deriving DecidableEq, Repr

/-- What is wrong. Offending characters are missing at the end of the document. -/
inductive Problem
  /-- A character that no document may hold. -/
  | character (c : Char)
  | keyColon
  | entryPlace
  | keyPlace
  | valuePlace
  | tokenStart (c : Option Char)
  | openQuote
  | quoteSeparator
  | escapeDigits (count : Nat) (found : Option Char)
  | escapeLetter (found : Option Char)
  | blockIndent
  | blockIndicator (found : Option Char)
  | blockLine (found : Option Char)
  | referenceName (isAlias : Bool) (found : Option Char)
  | directiveName (found : Option Char)
  | directiveDigit (found : Option Char)
  | directivePoint (found : Option Char)
  | directiveEnd (found : Option Char)
  | directiveLine (found : Option Char)
  /-- A tag of a node, or the one that a directive declares. -/
  | tagHandle (declared : Bool) (found : Option Char)
  | tagText (declared : Bool) (found : Option Char)
  | tagSpace (declared : Bool) (found : Option Char)
  | tagClose (found : Option Char)
  | versionTwice
  | version
  | handleTwice (handle : List Char)
  | tagUnknown (handle : List Char)
  | nodeContent (block : Bool) (found : String)
  | itemsEnd (found : String)
  | fieldsEnd (found : String)
  | flowItemsEnd (found : String)
  | flowFieldsEnd (found : String)
  | documentStart (found : String)
  | secondDocument
  | aliasUnknown (name : List Char)
  | anchorTwice (name : List Char)
  | keyForm
  | mergeItem (found : String)
  | mergeForm (found : String)
  | noConstructor (tag : List Char)
  | notScalar (found : String)
  | notSequence (found : String)
  | notMapping (found : String)
  /-- Something else than the sequence of a list of pairs, the order of which counts or not. -/
  | pairList (ordered : Bool) (found : String)
  | pairForm (ordered : Bool) (found : String)
  | pairCount (ordered : Bool) (count : Nat)
  | bytes (problem : ByteProblem)

namespace Problem

def shown (s : List Char) : String :=
  String.ofList (Text.quoted s)

/-- A character in quotes; the end of a document counts as the character zero. -/
def shownChar (c : Option Char) : String :=
  shown [c.getD (Char.ofNat 0)]

def stage : Problem → Stage
  | character _ => .reading
  | keyColon | entryPlace | keyPlace | valuePlace | tokenStart _ | openQuote | quoteSeparator
  | escapeDigits .. | escapeLetter _ | blockIndent | blockIndicator _ | blockLine _
  | referenceName .. | directiveName _ | directiveDigit _ | directivePoint _ | directiveEnd _
  | directiveLine _ | tagHandle .. | tagText .. | tagSpace .. | tagClose _ => .scanning
  | versionTwice | version | handleTwice _ | tagUnknown _ | nodeContent .. | itemsEnd _
  | fieldsEnd _ | flowItemsEnd _ | flowFieldsEnd _ | documentStart _ => .parsing
  | secondDocument | aliasUnknown _ | anchorTwice _ => .composing
  | keyForm | mergeItem _ | mergeForm _ | noConstructor _ | notScalar _ | notSequence _
  | notMapping _ | pairList .. | pairForm .. | pairCount .. | bytes _ => .constructing

/-- What a tag belongs to. -/
def tagged (declared : Bool) : String :=
  if declared then "directive" else "tag"

/-- What was under way when the problem showed. -/
def context? : Problem → Option String
  | keyColon => some "while scanning a simple key"
  | tokenStart _ => some "while scanning for the next token"
  | openQuote | quoteSeparator => some "while scanning a quoted scalar"
  | escapeDigits .. | escapeLetter _ => some "while scanning a double-quoted scalar"
  | blockIndent | blockIndicator _ | blockLine _ => some "while scanning a block scalar"
  | referenceName isAlias _ =>
    some (if isAlias then "while scanning an alias" else "while scanning an anchor")
  | directiveName _ | directiveDigit _ | directivePoint _ | directiveEnd _ | directiveLine _ =>
    some "while scanning a directive"
  | tagHandle declared _ | tagSpace declared _ => some ("while scanning a " ++ tagged declared)
  | tagText declared _ => some ("while parsing a " ++ tagged declared)
  | tagClose _ => some "while parsing a tag"
  | tagUnknown _ => some "while parsing a node"
  | nodeContent block _ => some (if block then "while parsing a block node"
      else "while parsing a flow node")
  | itemsEnd _ => some "while parsing a block collection"
  | fieldsEnd _ => some "while parsing a block mapping"
  | flowItemsEnd _ => some "while parsing a flow sequence"
  | flowFieldsEnd _ => some "while parsing a flow mapping"
  | secondDocument => some "expected a single document in the stream"
  | anchorTwice name => some ("found duplicate anchor " ++ shown name ++ "; first occurrence")
  | keyForm | mergeItem _ | mergeForm _ => some "while constructing a mapping"
  | pairList ordered _ | pairForm ordered _ | pairCount ordered _ =>
    some (if ordered then "while constructing an ordered map" else "while constructing pairs")
  | _ => none

def text : Problem → String
  | character _ => "special characters are not allowed"
  | keyColon => "could not find expected ':'"
  | entryPlace => "sequence entries are not allowed here"
  | keyPlace => "mapping keys are not allowed here"
  | valuePlace => "mapping values are not allowed here"
  | tokenStart c => "found character " ++ shownChar c ++ " that cannot start any token"
  | openQuote => "found unexpected end of stream"
  | quoteSeparator => "found unexpected document separator"
  | escapeDigits count found =>
    "expected escape sequence of " ++ String.ofList (Text.digitsOf count) ++
      " hexadecimal numbers, but found " ++ shownChar found
  | escapeLetter found => "found unknown escape character " ++ shownChar found
  | blockIndent => "expected indentation indicator in the range 1-9, but found 0"
  | blockIndicator found =>
    "expected chomping or indentation indicators, but found " ++ shownChar found
  | blockLine found | directiveLine found =>
    "expected a comment or a line break, but found " ++ shownChar found
  | referenceName _ found | directiveName found =>
    "expected alphabetic or numeric character, but found " ++ shownChar found
  | directiveDigit found => "expected a digit, but found " ++ shownChar found
  | directivePoint found => "expected a digit or '.', but found " ++ shownChar found
  | directiveEnd found => "expected a digit or ' ', but found " ++ shownChar found
  | tagHandle _ found => "expected '!', but found " ++ shownChar found
  | tagText _ found => "expected URI, but found " ++ shownChar found
  | tagSpace _ found => "expected ' ', but found " ++ shownChar found
  | tagClose found => "expected '>', but found " ++ shownChar found
  | versionTwice => "found duplicate YAML directive"
  | version => "found incompatible YAML document (version 1.* is required)"
  | handleTwice handle => "duplicate tag handle " ++ shown handle
  | tagUnknown handle => "found undefined tag handle " ++ shown handle
  | nodeContent _ found => "expected the node content, but found '" ++ found ++ "'"
  | itemsEnd found | fieldsEnd found => "expected <block end>, but found '" ++ found ++ "'"
  | flowItemsEnd found => "expected ',' or ']', but got '" ++ found ++ "'"
  | flowFieldsEnd found => "expected ',' or '\x7d', but got '" ++ found ++ "'"
  | documentStart found => "expected '<document start>', but found '" ++ found ++ "'"
  | secondDocument => "but found another document"
  | aliasUnknown name => "found undefined alias " ++ shown name
  | anchorTwice _ => "second occurrence"
  | keyForm => "found unhashable key"
  | mergeItem found => "expected a mapping for merging, but found " ++ found
  | mergeForm found =>
    "expected a mapping or list of mappings for merging, but found " ++ found
  | noConstructor tag => "could not determine a constructor for the tag " ++ shown tag
  | notScalar found => "expected a scalar node, but found " ++ found
  | notSequence found => "expected a sequence node, but found " ++ found
  | notMapping found => "expected a mapping node, but found " ++ found
  | pairList _ found => "expected a sequence, but found " ++ found
  | pairForm _ found => "expected a mapping of length 1, but found " ++ found
  | pairCount _ count =>
    "expected a single mapping item, but found " ++ String.ofList (Text.digitsOf count) ++ " items"
  | bytes problem => problem.text

end Problem

/-- A problem with its place, and with the start of the part that it belongs to. -/
structure Malformed where
  problem : Problem
  start : Option Mark
  mark : Mark

namespace Malformed

/-- A place in the document at a path, counted from one. -/
def placeText (path : String) (m : Mark) : String :=
  "  in \"" ++ path ++ "\", line " ++ String.ofList (Text.digitsOf (m.line + 1)) ++ ", column " ++
    String.ofList (Text.digitsOf (m.column + 1))

/-- The lines of a message. The start is left out where it is the place of the problem. -/
def message (path : String) (e : Malformed) : String :=
  match e.problem with
  | .character c =>
    "unacceptable character #x" ++
      String.ofList (Text.hexDigits 4 c.toNat) ++ ": " ++ e.problem.text ++
      "\n  in \"" ++ path ++ "\", position " ++
      String.ofList (Text.digitsOf e.mark.index)
  | problem =>
    let start := match e.start with
      | some m =>
        if m.line = e.mark.line ∧ m.column = e.mark.column then [] else [placeText path m]
      | none => []
    "\n".intercalate
      (problem.context?.toList ++ start ++ [problem.text, placeText path e.mark])

end Malformed

end WaveNotebook.Document
