import WaveNotebook.Document.Token

/-!
# Names, tags and directives

An anchor names a part of a document, and a reference repeats it. A tag says what
a part stands for. Directives come before a document: one gives the version of
the format, another one declares the handle of tags.
-/

namespace WaveNotebook.Document

/-- A problem at a cursor, in a part that starts at a place. -/
def Cursor.fail {α : Type} (c : Cursor) (start : Option Mark) (p : Problem) : Except Malformed α :=
  .error ⟨p, start, c.mark⟩

def isNameChar (c : Char) : Bool :=
  c.isAlphanum || c == '-' || c == '_'

/-- The end of a line, or of the document. -/
def endsLine : Option Char → Bool :=
  endsOr isBreak

/-- A space, the end of a line or that of the document. -/
def endsWord : Option Char → Bool :=
  endsOr fun c => c == ' ' || isBreak c

/-- Skips a comment and the line break behind it. -/
def Cursor.skipLine (c : Cursor) (start : Mark) (problem : Option Char → Problem) :
    Except Malformed Cursor :=
  let c := c.skipWhile (· == ' ')
  let c := if c.peek = some '#' then c.skipWhile (!isBreak ·) else c
  if endsLine c.peek then .ok ((c.takeBreak.map (·.2)).getD c)
  else c.fail (some start) (problem c.peek)

/-- An anchor or a reference, which starts with its sign. -/
def cutReference (isAlias : Bool) (c : Cursor) : Except Malformed (Token × Cursor) :=
  let (name, d) := c.next.span isNameChar
  let ends := endsOr fun x => isGap x || "?:,]\x7d%@\x60".toList.contains x
  if name.isEmpty || !ends d.peek then d.fail (some c.mark) (.referenceName isAlias d.peek)
  else .ok (⟨if isAlias then .reference name else .anchor name, c.mark, d.mark⟩, d)

/-- The handle of a tag: an exclamation mark alone, or two of them around a name. -/
def cutHandle (declared : Bool) (start : Mark) (c : Cursor) :
    Except Malformed (List Char × Cursor) :=
  if c.peek ≠ some '!' then c.fail (some start) (.tagHandle declared c.peek)
  else if c.peekAt 1 = some ' ' then .ok (['!'], c.next)
  else
    let (name, d) := c.next.span isNameChar
    if d.peek = some '!' then .ok ('!' :: name ++ ['!'], d.next)
    else d.fail (some start) (.tagHandle declared d.peek)

def isTagChar (c : Char) : Bool :=
  c.isAlphanum || "-;/?:@&=+$,_.!~*'()[]%".toList.contains c

/-- The part of a tag behind its handle. -/
def cutTagText (declared : Bool) (start : Mark) (c : Cursor) :
    Except Malformed (List Char × Cursor) :=
  let (text, d) := c.span isTagChar
  if text.isEmpty then d.fail (some start) (.tagText declared d.peek) else .ok (text, d)

/-- Whether another exclamation mark stands in the same word. -/
def hasHandle (s : List Char) : Bool :=
  (s.takeWhile fun c => !(c == ' ' || isBreak c)).contains '!'

def cutTag (c : Cursor) : Except Malformed (Token × Cursor) := do
  let start := c.mark
  let (name, d) ← (do
    if c.peekAt 1 = some '<' then
      let (text, d) ← cutTagText false start (c.skip 2)
      if d.peek = some '>' then return (⟨none, text⟩, d.next)
      else d.fail (some start) (.tagClose d.peek)
    else if endsOr isGap (c.peekAt 1) then return (⟨none, ['!']⟩, c.next)
    else
      let (handle, d) ←
        if hasHandle c.next.rest then cutHandle false start c else .ok (['!'], c.next)
      let (text, d) ← cutTagText false start d
      return (⟨some handle, text⟩, d) : Except Malformed (TagName × Cursor))
  if endsWord d.peek then return (⟨.tag name, start, d.mark⟩, d)
  else d.fail (some start) (.tagSpace false d.peek)

def cutNumber (start : Mark) (c : Cursor) : Except Malformed (Nat × Cursor) :=
  let (digits, d) := c.span Char.isDigit
  if digits.isEmpty then d.fail (some start) (.directiveDigit d.peek)
  else .ok (Text.digitsValue digits, d)

def cutVersion (start : Mark) (c : Cursor) : Except Malformed (Directive × Cursor) := do
  let (major, d) ← cutNumber start (c.skipWhile (· == ' '))
  if d.peek ≠ some '.' then d.fail (some start) (.directivePoint d.peek)
  else
    let (minor, d) ← cutNumber start d.next
    if endsWord d.peek then return (.version major minor, d)
    else d.fail (some start) (.directiveEnd d.peek)

def cutHandleText (start : Mark) (c : Cursor) : Except Malformed (Directive × Cursor) := do
  let (handle, d) ← cutHandle true start (c.skipWhile (· == ' '))
  if d.peek ≠ some ' ' then d.fail (some start) (.tagSpace true d.peek)
  else
    let (text, d) ← cutTagText true start (d.skipWhile (· == ' '))
    if endsWord d.peek then return (.handle handle text, d)
    else d.fail (some start) (.tagSpace true d.peek)

/-- A directive, which starts with a percent sign and takes up a line. -/
def cutDirective (c : Cursor) : Except Malformed (Token × Cursor) := do
  let start := c.mark
  let (name, d) := c.next.span isNameChar
  if name.isEmpty || !endsWord d.peek then d.fail (some start) (.directiveName d.peek)
  else
    let (directive, d) ←
      if name = ['Y', 'A', 'M', 'L'] then cutVersion start d
      else if name = ['T', 'A', 'G'] then cutHandleText start d
      else .ok (.other, d.skipWhile (!isBreak ·))
    let stop := d.mark
    let d ← d.skipLine start .directiveLine
    return (⟨.directive directive, start, stop⟩, d)

end WaveNotebook.Document
