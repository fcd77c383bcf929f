import WaveNotebook.Document.Node

/-!
# What a document says

Every node of a document stands for data by its tag. A mapping may have keys that
are no texts; two keys that are equal as data are one key, which keeps its place
and takes the later value. A mapping can take over the fields of other mappings,
which come before its own.
-/

namespace WaveNotebook.Document

/-- Data whose mappings have data as keys. -/
inductive Tree
  | leaf (d : Datum)
  | list (items : List Tree)
  | mapping (fields : List (Datum × Tree))

/-- What keeps a node from standing for data. -/
inductive TreeFault
  | node (e : Malformed)
  | scalar (f : NumericFault)

namespace Tree

/-- Keys are equal if they are equal numbers, truth values counted as such, or have the same
type and form. -/
def sameKey (a b : Datum) : Bool :=
  let number : Datum → Option (Int ⊕ Float)
    | .bool b => some (.inl (if b then 1 else 0))
    | .integer n => some (.inl n)
    | .number x =>
      some (if Binary64.isInteger x then .inl (Binary64.truncate x) else .inr x)
    | _ => none
  match number a, number b with
  | some (.inl m), some (.inl n) => m == n
  | some (.inr x), some (.inr y) => x == y || (Binary64.isNaN x && Binary64.isNaN y)
  | none, none => a.typeName == b.typeName && a.shown == b.shown
  | _, _ => false

def put (fields : List (Datum × Tree)) (key : Datum) (value : Tree) : List (Datum × Tree) :=
  if fields.any (sameKey key ·.1) then
    fields.map fun f => if sameKey key f.1 then (f.1, value) else f
  else fields ++ [(key, value)]

/-- The field of a mapping whose key is a text. -/
def field? (fields : List (Datum × Tree)) (key : String) : Option Tree :=
  (fields.find? fun f => sameKey (.text key) f.1).map (·.2)

/-- The written form of a mapping. -/
def mappingText (fields : List (Datum × Datum)) : String :=
  "\x7b" ++ ", ".intercalate (fields.map fun f => f.1.shown ++ ": " ++ f.2.shown) ++ "\x7d"

/-- A mapping of data: a record if all its keys are texts. -/
def mappingDatum (fields : List (Datum × Datum)) : Datum :=
  match fields.mapM fun f => f.1.text?.map (·, f.2) with
  | some record => .record record
  | none => .ofType "dict" (mappingText fields)

mutual

def toDatum : Tree → Datum
  | leaf d => d
  | list ts => .list (itemData ts)
  | mapping fs => mappingDatum (fieldData fs)

def itemData : List Tree → List Datum
  | [] => []
  | t :: ts => t.toDatum :: itemData ts

def fieldData : List (Datum × Tree) → List (Datum × Datum)
  | [] => []
  | f :: fs => (f.1, f.2.toDatum) :: fieldData fs

end

/-- A pair of data. -/
def pair (a b : Tree) : Tree :=
  leaf (.ofType "tuple" ("(" ++ a.toDatum.shown ++ ", " ++ b.toDatum.shown ++ ")"))

/-- The keys of a mapping without its values. -/
def keySet (fields : List (Datum × Tree)) : Tree :=
  leaf <| .ofType "set" <|
    if fields.isEmpty then "set()"
    else "\x7b" ++ ", ".intercalate (fields.map (·.1.shown)) ++ "\x7d"

end Tree

namespace Node

def fail {α : Type} (n : Node) (p : Problem) : Except TreeFault α :=
  .error (.node ⟨p, none, n.mark⟩)

/-- The text of a scalar. A mapping can name one by a sign of its own. -/
def scalarText : Nat → Node → Except TreeFault (List Char)
  | bound + 1, n =>
    match n with
    | scalar _ text _ => .ok text
    | mapping _ fields _ =>
      match fields.find? (·.1.tag == ScalarForm.default.tag) with
      | some f => scalarText bound f.2
      | none => n.fail (.notScalar n.kindName)
    | _ => n.fail (.notScalar n.kindName)
  | 0, n => n.fail (.notScalar n.kindName)

/-- The datum of a node whose tag is one of a scalar. -/
def scalarDatum? (tag : String) (text : List Char) : Option (Except NumericFault Datum) :=
  if tag = ScalarForm.text.tag then some (.ok (.text (String.ofList text)))
  else if tag = ScalarForm.missing.tag then some (.ok .null)
  else if tag = ScalarForm.truth.tag then some ((truthOf text).map .bool)
  else if tag = ScalarForm.integer.tag then some ((integerOf text).map .integer)
  else if tag = ScalarForm.number.tag then some ((numberOf text).map .number)
  else if tag = ScalarForm.timestamp.tag then
    some <| match timestamp? text with
      | some t => (timestampOf t).mapError .date
      | none => .error (.lookup (.member "NoneType" "groupdict"))
  else none

/-- The fields of a mapping, in which the fields of mappings to take over come first. The first
argument bounds the depth. -/
def mergedFields : Nat → Mark → List (Node × Node) → Except TreeFault (List (Node × Node))
  | 0, _, fields => .ok fields
  | bound + 1, start, fields => do
    let own := fields.filter (·.1.tag != ScalarForm.merge.tag)
    let taken ← (fields.filter (·.1.tag == ScalarForm.merge.tag)).mapM fun f =>
      match f.2 with
      | mapping _ inner m => mergedFields bound m inner
      | enclosing true _ => .ok []
      | sequence _ items _ => do
        let parts ← items.mapM fun item =>
          match item with
          | mapping _ inner m => mergedFields bound m inner
          | enclosing true _ => .ok []
          | n => .error (.node ⟨.mergeItem n.kindName, some start, n.mark⟩)
        return parts.reverse.flatten
      | n => .error (.node ⟨.mergeForm n.kindName, some start, n.mark⟩)
    return taken.flatten ++ own

/-- The tags of data that cannot be keys. -/
def collectionTags : List String :=
  ["seq", "map", "set", "omap", "pairs"].map coreTag

/-- The fields of a mapping, for what its nodes stand for. -/
def keyedTrees (bound : Nat) (build : Node → Except TreeFault Tree) (start : Mark)
    (fields : List (Node × Node)) : Except TreeFault (List (Datum × Tree)) := do
  let fields ← mergedFields bound start fields
  let pairs ← fields.mapM fun f => do
    if collectionTags.contains f.1.tag then
      .error (.node ⟨.keyForm, some start, f.1.mark⟩)
    else if f.1.tag = ScalarForm.default.tag then
      let key ← scalarText bound f.1
      return (.text (String.ofList key), ← build f.2)
    else
      let key ← build f.1
      return (key.toDatum, ← build f.2)
  return pairs.foldl (fun acc f => Tree.put acc f.1 f.2) []

/-- A pair in a list of pairs: a mapping of one field. -/
def pairTree (ordered : Bool) (build : Node → Except TreeFault Tree) (start : Mark) :
    Node → Except TreeFault Tree
  | mapping _ [f] _ => do return Tree.pair (← build f.1) (← build f.2)
  | mapping _ fields m => .error (.node ⟨.pairCount ordered fields.length, some start, m⟩)
  | n => .error (.node ⟨.pairForm ordered n.kindName, some start, n.mark⟩)

/-- A list of pairs. -/
def pairTrees (ordered : Bool) (build : Node → Except TreeFault Tree) :
    Node → Except TreeFault Tree
  | sequence _ items m => do return .list (← items.mapM (pairTree ordered build m))
  | n => n.fail (.pairList ordered n.kindName)

/-- What a node stands for. The first argument bounds the depth. -/
def tree : Nat → Node → Except TreeFault Tree
  | 0, _ => .ok (.leaf .null)
  | bound + 1, n =>
    if n.tag = coreTag "seq" then
      match n with
      | sequence _ items _ => do return .list (← items.mapM (tree bound))
      | enclosing .. => .ok (.leaf (.ofType "list" "[...]"))
      | n => n.fail (.notSequence n.kindName)
    else if n.tag = coreTag "map" then
      match n with
      | mapping _ fields m => do return .mapping (← keyedTrees bound (tree bound) m fields)
      | enclosing .. => .ok (.leaf (.ofType "dict" "\x7b...\x7d"))
      | n => n.fail (.notMapping n.kindName)
    else if n.tag = coreTag "set" then
      match n with
      | mapping _ fields m => do return Tree.keySet (← keyedTrees bound (tree bound) m fields)
      | n => n.fail (.notMapping n.kindName)
    else if n.tag = coreTag "omap" then pairTrees true (tree bound) n
    else if n.tag = coreTag "pairs" then pairTrees false (tree bound) n
    else if n.tag = coreTag "binary" then do
      match Bytes.ofText (← scalarText bound n) with
      | .ok bytes => return .leaf (.ofType "bytes" (Bytes.shown bytes))
      | .error e => n.fail (.bytes e)
    else
      match scalarDatum? n.tag [] with
      | none => n.fail (.noConstructor n.tag.toList)
      | some _ => do
        let text ← scalarText bound n
        match scalarDatum? n.tag text with
        | some (.ok d) => return .leaf d
        | some (.error f) => .error (.scalar f)
        | none => return .leaf .null

end Node

/-- What a text says, or nothing if it holds no document. -/
def treeOf (text : List Char) : Except TreeFault (Option Tree) :=
  match nodeOf text with
  | .error e => .error (.node e)
  | .ok none => .ok none
  | .ok (some n) => (n.tree (text.length + 2)).map some

end WaveNotebook.Document
