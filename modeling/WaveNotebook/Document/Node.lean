import WaveNotebook.Document.Scalar
import WaveNotebook.Document.Token.Lexer

/-!
# Nodes of a document

The tokens of a document form one tree of scalars, sequences and mappings. Every
node has a tag: the one that is written, or else the one that the form of the node
gives. A reference stands for the node with its anchor, which may be a collection
that is still open.
-/

namespace WaveNotebook.Document

inductive Node
  | scalar (tag : String) (text : List Char) (mark : Mark)
  | sequence (tag : String) (items : List Node) (mark : Mark)
  | mapping (tag : String) (fields : List (Node × Node)) (mark : Mark)
  /-- A collection that holds the reference to it. -/
  | enclosing (isMapping : Bool) (mark : Mark)

/-- The tag that a name of the core types has. -/
def coreTag (name : String) : String := "tag:yaml.org,2002:" ++ name

def ScalarForm.tag : ScalarForm → String
  | text => coreTag "str"
  | truth => coreTag "bool"
  | missing => coreTag "null"
  | integer => coreTag "int"
  | number => coreTag "float"
  | timestamp => coreTag "timestamp"
  | merge => coreTag "merge"
  | default => coreTag "value"

namespace Node

def mark : Node → Mark
  | scalar _ _ m | sequence _ _ m | mapping _ _ m | enclosing _ m => m

def tag : Node → String
  | scalar t .. | sequence t .. | mapping t .. => t
  | enclosing isMapping _ => coreTag (if isMapping then "map" else "seq")

/-- The kind of a node, for messages. -/
def kindName : Node → String
  | scalar .. => "scalar"
  | sequence .. => "sequence"
  | mapping .. => "mapping"
  | enclosing isMapping _ => if isMapping then "mapping" else "sequence"

def empty (m : Mark) : Node := scalar ScalarForm.missing.tag [] m

end Node

/-- What has been read of a document: the tokens ahead with the problem behind them, the nodes
with anchors, and the handles of tags. -/
structure Progress where
  tokens : List Token
  problem : Option Malformed
  anchors : List (List Char × Node)
  handles : List (List Char × List Char)

abbrev Reading := StateT Progress (Except Malformed)

namespace Reading

/-- The next token, which stays ahead. -/
def peek : Reading Token := do
  match (← get).tokens, (← get).problem with
  | t :: _, _ => return t
  | [], some e => throw e
  | [], none => return ⟨.streamEnd, ⟨0, 0, 0⟩, ⟨0, 0, 0⟩⟩

def take : Reading Token := do
  let t ← peek
  modify fun p => { p with tokens := p.tokens.drop 1 }
  return t

def sees (forms : List TokenForm) : Reading Bool := do
  return forms.contains (← peek).form

/-- A problem at the next token, named by it, in a part that starts at a place. -/
def refuse {α : Type} (start : Option Mark) (p : String → Problem) : Reading α := do
  let t ← peek
  throw ⟨p t.form.name, start, t.start⟩

/-- The handles of tags that need no declaration. -/
def standardHandles : List (List Char × List Char) :=
  [(['!'], ['!']), (['!', '!'], (coreTag "").toList)]

/-- The anchor and the tag in front of a node, in either order, with their places. -/
structure Properties where
  anchor : Option (List Char)
  tag : Option (TagName × Mark)
  start : Option Mark
  stop : Mark

def properties : Reading Properties := do
  let first ← peek
  let tagged (start : Mark) (anchor : Option (List Char)) (stop : Mark) : Reading Properties := do
    let t ← peek
    match t.form with
    | .tag name =>
      let _ ← take
      return ⟨anchor, some (name, t.start), some start, t.stop⟩
    | _ => return ⟨anchor, none, some start, stop⟩
  match first.form with
  | .anchor name =>
    let _ ← take
    tagged first.start (some name) first.stop
  | .tag tag =>
    let _ ← take
    let t ← peek
    match t.form with
    | .anchor name =>
      let _ ← take
      return ⟨some name, some (tag, first.start), some first.start, t.stop⟩
    | _ => return ⟨none, some (tag, first.start), some first.start, first.stop⟩
  | _ => return ⟨none, none, none, first.start⟩

/-- The tag in full; a lone exclamation mark is the same as none. -/
def tagText (ps : Properties) : Reading (Option String) := do
  match ps.tag with
  | none => return none
  | some (name, mark) =>
    match name.handle with
    | none => return some (String.ofList name.suffix)
    | some handle =>
      match (← get).handles.lookup handle with
      | some start => return some (String.ofList (start ++ name.suffix))
      | none => throw ⟨.tagUnknown handle, ps.start, mark⟩

/-- Refuses an anchor that is in use. -/
def checkAnchor (ps : Properties) (start : Mark) : Reading Unit := do
  let known := (← get).anchors
  match ps.anchor.bind fun name => (known.lookup name).map (name, ·) with
  | some (name, n) => throw ⟨.anchorTwice name, some n.mark, start⟩
  | none => return

def bindAnchor (ps : Properties) (n : Node) : Reading Unit :=
  match ps.anchor with
  | some name => modify fun p => { p with anchors := (name, n) :: p.anchors }
  | none => return

/-- The node of a scalar. Only the form of an untagged plain one counts. -/
def scalarNode (tag : Option String) (text : List Char) (style : ScalarStyle) (mark : Mark) :
    Node :=
  match tag with
  | none => .scalar (if style = .plain then (formOf text).tag else ScalarForm.text.tag) text mark
  | some "!" => .scalar (formOf text).tag text mark
  | some tag => .scalar tag text mark

/-- The tag of a collection. -/
def collectionTag (tag : Option String) (name : String) : String :=
  match tag with
  | none | some "!" => coreTag name
  | some tag => tag

mutual

/-- Reads a node. Blocks can stand outside of brackets only, and a sequence without an
indentation of its own only as a part of a mapping. The first argument bounds the number of
steps, here and below. -/
def node : Nat → (block indentless : Bool) → Reading Node
  | 0, _, _ => return .empty ⟨0, 0, 0⟩
  | bound + 1, block, indentless => do
    let first ← peek
    match first.form with
    | .reference name =>
      let _ ← take
      match (← get).anchors.lookup name with
      | some n => return n
      | none => throw ⟨.aliasUnknown name, none, first.start⟩
    | _ =>
      let ps ← properties
      let tag ← tagText ps
      let t ← peek
      let start := ps.start.getD t.start
      let collection (isMapping : Bool) (name : String) (parts : Reading Node) : Reading Node := do
        checkAnchor ps start
        bindAnchor ps (.enclosing isMapping start)
        let n ← match ← parts with
          | .sequence _ items _ => pure (.sequence (collectionTag tag name) items start)
          | .mapping _ fields _ => pure (.mapping (collectionTag tag name) fields start)
          | n => pure n
        bindAnchor ps n
        return n
      match t.form with
      | .scalar text style =>
        let _ ← take
        checkAnchor ps start
        let n := scalarNode tag text style start
        bindAnchor ps n
        return n
      | .flowItemsStart =>
        collection false "seq" do
          let _ ← take
          return .sequence "" (← flowItems bound t.start true) start
      | .flowFieldsStart =>
        collection true "map" do
          let _ ← take
          return .mapping "" (← flowFields bound t.start true) start
      | form =>
        if indentless && form == .item then
          collection false "seq" do return .sequence "" (← indentlessItems bound) start
        else if block && form == .itemsStart then
          collection false "seq" do
            let _ ← take
            return .sequence "" (← blockItems bound t.start) start
        else if block && form == .fieldsStart then
          collection true "map" do
            let _ ← take
            return .mapping "" (← blockFields bound t.start) start
        else if ps.anchor.isSome || ps.tag.isSome then
          checkAnchor ps start
          let n := match tag with
            | none | some "!" => Node.empty start
            | some tag => .scalar tag [] start
          bindAnchor ps n
          return n
        else refuse (some start) (.nodeContent block)

/-- A node, unless one of some tokens comes next. -/
def nodeUnless : Nat → (ends : List TokenForm) → (block indentless : Bool) → Mark → Reading Node
  | 0, _, _, _, m => return .empty m
  | bound + 1, ends, block, indentless, m => do
    if ← sees ends then return .empty m
    else node bound block indentless

/-- The items of a block sequence up to its end. -/
def blockItems : Nat → Mark → Reading (List Node)
  | 0, _ => return []
  | bound + 1, start => do
    let t ← peek
    if t.form = .item then
      let _ ← take
      let n ← nodeUnless bound [.item, .blockEnd] true false t.stop
      return n :: (← blockItems bound start)
    else if t.form = .blockEnd then
      let _ ← take
      return []
    else refuse (some start) .itemsEnd

/-- The items of a sequence that has the indentation of the mapping around it. -/
def indentlessItems : Nat → Reading (List Node)
  | 0 => return []
  | bound + 1 => do
    let t ← peek
    if t.form = .item then
      let _ ← take
      let n ← nodeUnless bound [.item, .key, .value, .blockEnd] true false t.stop
      return n :: (← indentlessItems bound)
    else return []

/-- The value of a field behind a colon, which may be missing. -/
def fieldValue : Nat → (ends : List TokenForm) → (block : Bool) → Reading Node
  | 0, _, _ => return .empty ⟨0, 0, 0⟩
  | bound + 1, ends, block => do
    let t ← peek
    if t.form = .value then
      let _ ← take
      nodeUnless bound ends block block t.stop
    else return .empty t.start

/-- The fields of a block mapping up to its end. -/
def blockFields : Nat → Mark → Reading (List (Node × Node))
  | 0, _ => return []
  | bound + 1, start => do
    let ends := [.key, .value, .blockEnd]
    let t ← peek
    if t.form = .key then
      let _ ← take
      let k ← nodeUnless bound ends true true t.stop
      let v ← fieldValue bound ends true
      return (k, v) :: (← blockFields bound start)
    else if t.form = .blockEnd then
      let _ ← take
      return []
    else refuse (some start) .fieldsEnd

/-- The items between square brackets. An item with a colon is a mapping of one field. -/
def flowItems : Nat → Mark → (first : Bool) → Reading (List Node)
  | 0, _, _ => return []
  | bound + 1, start, first => do
    let t ← peek
    if t.form = .flowItemsEnd then
      let _ ← take
      return []
    else if !first && t.form != .separator then refuse (some start) .flowItemsEnd
    else
      if !first then let _ ← take
      let t ← peek
      if t.form = .key then
        let _ ← take
        let k ← nodeUnless bound [.value, .separator, .flowItemsEnd] false false t.stop
        let v ← fieldValue bound [.separator, .flowItemsEnd] false
        let n := Node.mapping (coreTag "map") [(k, v)] t.start
        return n :: (← flowItems bound start false)
      else if t.form = .flowItemsEnd then
        let _ ← take
        return []
      else
        let n ← node bound false false
        return n :: (← flowItems bound start false)

/-- The fields between braces. A key alone has no value. -/
def flowFields : Nat → Mark → (first : Bool) → Reading (List (Node × Node))
  | 0, _, _ => return []
  | bound + 1, start, first => do
    let t ← peek
    if t.form = .flowFieldsEnd then
      let _ ← take
      return []
    else if !first && t.form != .separator then refuse (some start) .flowFieldsEnd
    else
      if !first then let _ ← take
      let t ← peek
      if t.form = .key then
        let _ ← take
        let k ← nodeUnless bound [.value, .separator, .flowFieldsEnd] false false t.stop
        let v ← fieldValue bound [.separator, .flowFieldsEnd] false
        return (k, v) :: (← flowFields bound start false)
      else if t.form = .flowFieldsEnd then
        let _ ← take
        return []
      else
        let k ← node bound false false
        let next ← peek
        return (k, .empty next.start) :: (← flowFields bound start false)

end

/-- The directives in front of a document: the version at most once, and the handles of tags. -/
def directives : Nat → (versioned : Bool) → List (List Char × List Char) → Reading Unit
  | 0, _, _ => return
  | bound + 1, versioned, handles => do
    let t ← peek
    match t.form with
    | .directive d =>
      let _ ← take
      match d with
      | .version major _ =>
        if versioned then throw ⟨.versionTwice, none, t.start⟩
        else if major ≠ 1 then throw ⟨.version, none, t.start⟩
        else directives bound true handles
      | .handle handle text =>
        if (handles.lookup handle).isSome then throw ⟨.handleTwice handle, none, t.start⟩
        else directives bound versioned ((handle, text) :: handles)
      | .other => directives bound versioned handles
    | _ => modify fun p => { p with handles := handles ++ standardHandles }

/-- Skips signs of the end of a document. -/
def skipEnds : Nat → Reading Unit
  | 0 => return
  | bound + 1 => do
    if ← sees [.documentEnd] then
      let _ ← take
      skipEnds bound
    else return

/-- The start of a document with a sign of its own, and its place. -/
def explicitStart (bound : Nat) : Reading Mark := do
  let first ← peek
  directives bound false []
  if ← sees [.documentStart] then
    let _ ← take
    return first.start
  else refuse none .documentStart

def isDirective : TokenForm → Bool
  | .directive _ => true
  | _ => false

/-- The only document, or nothing if there is none. -/
def document (bound : Nat) : Reading (Option Node) := do
  let first ← peek
  let marked := isDirective first.form || first.form == .documentStart
  if first.form = .streamEnd then return none
  else
    if marked then let _ ← explicitStart bound
    let t ← peek
    let n ←
      if marked && (isDirective t.form ||
          [.documentStart, .documentEnd, .streamEnd].contains t.form) then
        pure (.empty t.start)
      else node bound true false
    skipEnds bound
    if ← sees [.streamEnd] then return some n
    else
      let next ← explicitStart bound
      throw ⟨.secondDocument, some n.mark, next⟩

end Reading

/-- The tree of a text, or nothing for a text without a document. -/
def nodeOf (text : List Char) : Except Malformed (Option Node) :=
  let (tokens, problem) := tokensOf text
  let bound := 4 * tokens.length + 4
  ((Reading.document bound).run ⟨tokens, problem, [], Reading.standardHandles⟩).map (·.1)

end WaveNotebook.Document
