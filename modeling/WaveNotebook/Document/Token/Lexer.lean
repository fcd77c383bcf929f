import WaveNotebook.Document.Token.Block

/-!
# Cutting a document into tokens

Tokens are only ever added at the end. A key without a sign is known as such only
when its colon shows, so that its place among the tokens is kept while it may still
become one: it must end on the line where it starts. Places of keys that did are
kept beside the tokens, and `Lexer.allTokens` puts their signs in. Indentation opens and
closes blocks outside of brackets.
-/

namespace WaveNotebook.Document

/-- The place of a token that may start a key. -/
structure PendingKey where
  /-- How many tokens come before it. -/
  place : Nat
  /-- Whether nothing but a key can stand there. -/
  required : Bool
  mark : Mark

/-- A key that was found: its place, where it starts, and whether it is the first one of a block. -/
structure FoundKey where
  place : Nat
  mark : Mark
  opens : Bool

structure Lexer where
  cursor : Cursor
  /-- The last token comes first. -/
  tokens : List Token
  /-- How many brackets are open. -/
  depth : Nat
  /-- The column behind the indentation of the block, or zero outside of all blocks. -/
  margin : Nat
  margins : List Nat
  keyAllowed : Bool
  /-- At most one pending key for each depth. -/
  pending : List (Nat × PendingKey)
  found : List FoundKey

namespace Lexer

def start (text : List Char) : Lexer :=
  let c := Cursor.start text
  ⟨if c.peek = some byteOrderMark then c.next else c, [], 0, 0, [], true, [], []⟩

def mark (l : Lexer) : Mark := l.cursor.mark

def inBlock (l : Lexer) : Bool := l.depth == 0

def push (l : Lexer) (t : Token) : Lexer :=
  { l with tokens := t :: l.tokens }

/-- Adds a token for which no character stands. -/
def pushMark (l : Lexer) (f : TokenForm) : Lexer :=
  l.push ⟨f, l.mark, l.mark⟩

/-- Adds a token of so many characters. -/
def pushSign (l : Lexer) (f : TokenForm) (length : Nat) : Lexer :=
  let c := l.cursor.skip length
  { l.push ⟨f, l.mark, c.mark⟩ with cursor := c }

def fail {α : Type} (l : Lexer) (start : Option Mark) (p : Problem) : Except Malformed α :=
  l.cursor.fail start p

/-- Gives up the pending keys that can no more become keys. -/
def dropStale (l : Lexer) : Except Malformed Lexer :=
  let isStale (k : PendingKey) : Bool :=
    k.mark.line != l.mark.line || k.mark.index + 1024 < l.mark.index
  match l.pending.find? fun k => isStale k.2 && k.2.required with
  | some (_, k) => l.fail (some k.mark) .keyColon
  | none => .ok { l with pending := l.pending.filter fun k => !isStale k.2 }

/-- Gives up the pending key of the present depth. -/
def dropKey (l : Lexer) : Except Malformed Lexer :=
  match l.pending.lookup l.depth with
  | some k =>
    if k.required then l.fail (some k.mark) .keyColon
    else .ok { l with pending := l.pending.filter (·.1 != l.depth) }
  | none => .ok l

/-- Keeps the next token as one that may start a key. -/
def keepKey (l : Lexer) : Except Malformed Lexer :=
  if l.keyAllowed then do
    let required := l.inBlock && l.margin == l.mark.column + 1
    let k : PendingKey := ⟨l.tokens.length, required, l.mark⟩
    let l ← l.dropKey
    return { l with pending := l.pending ++ [(l.depth, k)] }
  else .ok l

/-- Closes the blocks that are indented deeper than a column; `margin` is one more than that. -/
def closeBlocks (l : Lexer) (margin : Nat) : Lexer :=
  if l.inBlock then
    let kept := (l.margin :: l.margins).dropWhile (margin < ·)
    let closed := l.margins.length + 1 - kept.length
    let l := (List.replicate closed ()).foldl (fun l _ => l.pushMark .blockEnd) l
    { l with margin := kept.headD 0, margins := kept.tail }
  else l

/-- Whether a column opens a block, and the state inside of it. -/
def openBlock (l : Lexer) (column : Nat) : Bool × Lexer :=
  if l.margin < column + 1 then
    (true, { l with margin := column + 1, margins := l.margin :: l.margins })
  else (false, l)

/-- Skips spaces, comments and line breaks. The first argument bounds the number of lines. -/
def skipGaps : Nat → Lexer → Lexer
  | 0, l => l
  | bound + 1, l =>
    let c := l.cursor.skipWhile (· == ' ')
    let c := if c.peek = some '#' then c.skipWhile (!isBreak ·) else c
    match c.takeBreak with
    | some (_, d) =>
      skipGaps bound { l with cursor := d, keyAllowed := l.keyAllowed || l.inBlock }
    | none => { l with cursor := c }

/-- A sign between documents, or their end. -/
def between (l : Lexer) : Except Malformed Lexer := do
  let l ← (l.closeBlocks 0).dropKey
  return { l with keyAllowed := false }

def separatorLine (l : Lexer) (f : TokenForm) : Except Malformed Lexer :=
  return (← l.between).pushSign f 3

def openBracket (l : Lexer) (f : TokenForm) : Except Malformed Lexer := do
  let l ← l.keepKey
  return { l with depth := l.depth + 1, keyAllowed := true }.pushSign f 1

def closeBracket (l : Lexer) (f : TokenForm) : Except Malformed Lexer := do
  let l ← l.dropKey
  return { l with depth := l.depth - 1, keyAllowed := false }.pushSign f 1

def separator (l : Lexer) : Except Malformed Lexer := do
  let l ← l.dropKey
  return { l with keyAllowed := true }.pushSign .separator 1

/-- Opens a block at the present column, if a part of a block may start there. -/
def openHere (l : Lexer) (f : TokenForm) (p : Problem) : Except Malformed Lexer :=
  if l.inBlock then
    if l.keyAllowed then
      let (opens, l) := l.openBlock l.mark.column
      .ok (if opens then l.pushMark f else l)
    else l.fail none p
  else .ok l

def item (l : Lexer) : Except Malformed Lexer := do
  let l ← (← l.openHere .itemsStart .entryPlace).dropKey
  return { l with keyAllowed := true }.pushSign .item 1

def key (l : Lexer) : Except Malformed Lexer := do
  let l ← (← l.openHere .fieldsStart .keyPlace).dropKey
  return { l with keyAllowed := l.inBlock }.pushSign .key 1

/-- A colon, which makes a pending key a key. -/
def value (l : Lexer) : Except Malformed Lexer :=
  match l.pending.lookup l.depth with
  | some k =>
    let (opens, l) := if l.inBlock then l.openBlock k.mark.column else (false, l)
    let l := { l with
      pending := l.pending.filter (·.1 != l.depth)
      found := ⟨k.place, k.mark, opens⟩ :: l.found
      keyAllowed := false }
    .ok (l.pushSign .value 1)
  | none => do
    let l ← (← l.openHere .fieldsStart .valuePlace).dropKey
    return { l with keyAllowed := l.inBlock }.pushSign .value 1

/-- A token that may start a key, and whether a key may start behind it. -/
def content (l : Lexer) (cut : Cursor → Except Malformed (Token × Cursor × Bool)) :
    Except Malformed Lexer := do
  let l ← l.keepKey
  let (t, c, keyAllowed) ← cut l.cursor
  return { l.push t with cursor := c, keyAllowed := keyAllowed }

def blockText (l : Lexer) (folded : Bool) : Except Malformed Lexer := do
  let l ← { l with keyAllowed := true }.dropKey
  let (t, c) ← cutBlock folded l.margin l.cursor
  return { l.push t with cursor := c }

def directive (l : Lexer) : Except Malformed Lexer := do
  let l ← l.between
  let (t, c) ← cutDirective l.cursor
  return { l.push t with cursor := c }

def atEnd (cut : Cursor → Except Malformed (Token × Cursor)) (c : Cursor) :
    Except Malformed (Token × Cursor × Bool) := do
  let (t, d) ← cut c
  return (t, d, false)

def plain (l : Lexer) : Except Malformed Lexer :=
  l.content fun c =>
    let run := cutPlain (!l.inBlock) l.margin c
    .ok (⟨.scalar run.text .plain, c.mark, run.stop⟩, run.cursor, run.broken)

/-- Whether a plain scalar can start with a character that has another one behind it. -/
def startsPlain (inBlock : Bool) (c : Char) (next : Option Char) : Bool :=
  !(isGap c || "-?:,[]\x7b\x7d#&*!|>'\"%@\x60".toList.contains c) ||
    (!endsOr isGap next && (c == '-' || (inBlock && (c == '?' || c == ':'))))

/-- Adds the next token, or the last one if no character is left. -/
def step (l : Lexer) : Except Malformed Lexer := do
  let l ← (l.skipGaps (l.cursor.rest.length + 1)).dropStale
  let l := l.closeBlocks (l.mark.column + 1)
  let next := l.cursor.peekAt 1
  let starts := endsOr isGap next || !l.inBlock
  match l.cursor.peek with
  | none => return (← l.between).pushMark .streamEnd
  | some c =>
    let separates := l.mark.column == 0 && l.cursor.seesSeparator
    if c = '%' ∧ l.mark.column = 0 then l.directive
    else if c = '-' ∧ separates then l.separatorLine .documentStart
    else if c = '.' ∧ separates then l.separatorLine .documentEnd
    else if c = '[' then l.openBracket .flowItemsStart
    else if c = '\x7b' then l.openBracket .flowFieldsStart
    else if c = ']' then l.closeBracket .flowItemsEnd
    else if c = '\x7d' then l.closeBracket .flowFieldsEnd
    else if c = ',' then l.separator
    else if c = '-' ∧ endsOr isGap next then l.item
    else if c = '?' ∧ starts then l.key
    else if c = ':' ∧ starts then l.value
    else if c = '*' ∨ c = '&' then l.content (atEnd (cutReference (c == '*')))
    else if c = '!' then l.content (atEnd cutTag)
    else if (c = '|' ∨ c = '>') ∧ l.inBlock then l.blockText (c == '>')
    else if c = '\'' ∨ c = '"' then l.content (atEnd (cutQuoted c))
    else if startsPlain l.inBlock c next then l.plain
    else l.fail none (.tokenStart (some c))

/-- The signs of a key in front of the token at a place. -/
def keySigns (found : List FoundKey) (place : Nat) : List Token :=
  match found.find? (·.place == place) with
  | some k =>
    (if k.opens then [⟨.fieldsStart, k.mark, k.mark⟩] else []) ++ [⟨.key, k.mark, k.mark⟩]
  | none => []

/-- The tokens in order with the signs of the keys among them. -/
def allTokens (l : Lexer) : List Token :=
  l.tokens.reverse.zipIdx.flatMap fun t => keySigns l.found t.2 ++ [t.1]

/-- The tokens in front of the first place that is not settled. -/
def settledTokens (l : Lexer) : List Token :=
  let settled := (l.pending.map (·.2.place)).foldl min l.tokens.length
  ({ l with tokens := l.tokens.drop (l.tokens.length - settled) } : Lexer).allTokens

/-- Tokens, and the problem behind them if there is one. -/
abbrev Run := List Token × Option Malformed

/-- Adds tokens until the last one. The first argument bounds their number. -/
def run : Nat → Lexer → Run
  | 0, l => (l.allTokens, none)
  | bound + 1, l =>
    match l.step with
    | .error e => (l.settledTokens, some e)
    | .ok next =>
      if (next.tokens.head?.map (·.form)) = some .streamEnd then (next.allTokens, none)
      else
        match next.dropStale with
        | .error e => (l.settledTokens, some e)
        | .ok next => run bound next

end Lexer

/-- A character that a document may hold. -/
def isAllowed (c : Char) : Bool :=
  let n := c.toNat
  n == 0x09 || n == 0x0A || n == 0x0D || (0x20 ≤ n && n ≤ 0x7E) || n == 0x85 ||
    (0xA0 ≤ n && n ≤ 0xD7FF) || (0xE000 ≤ n && n ≤ 0xFFFD) || 0x10000 ≤ n

/-- Every line ends with a line feed. -/
def unifiedLines : List Char → List Char
  | [] => []
  | '\r' :: '\n' :: r => '\n' :: unifiedLines r
  | '\r' :: r => '\n' :: unifiedLines r
  | c :: r => c :: unifiedLines r

/-- The tokens of a text. -/
def tokensOf (text : List Char) : Lexer.Run :=
  let text := unifiedLines text
  let allowed := text.takeWhile isAllowed
  match text[allowed.length]? with
  | some c => ([], some ⟨.character c, none, (Cursor.start text).skip allowed.length |>.mark⟩)
  | none => Lexer.run (text.length + 1) (.start text)

end WaveNotebook.Document
