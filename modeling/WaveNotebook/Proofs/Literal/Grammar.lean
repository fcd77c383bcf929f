import WaveNotebook.Literal.Reader
import WaveNotebook.Proofs.Number.Numeral
import WaveNotebook.Proofs.Record
import WaveNotebook.Proofs.Text.Blank

/-!
# The grammar of data literals

A literal denotes a datum on two levels. Its text spells a row of tokens, with blanks wherever
they are wanted between the tokens and around them. The tokens derive a value: a number, a quoted
text, a truth value, a list in square brackets, or a record in curly ones with a key and a colon
before each value. Commas stand between the values of a list and the pairs of a record, and
nowhere else. A record is a literal of its own and no part of another value.
-/

namespace WaveNotebook.Literal

open Text

/-! ## Tokens and their texts -/

/-- The single characters that are tokens. -/
def marks : List Char := ['[', ']', '{', '}', ',', ':']

inductive Spelling : Token → List Char → Prop
  | numeral {n a} (h : NumeralText a n) : Spelling (.numeral n) a
  | quoted {quote s} (hquote : Scan.isQuote quote = true) (hs : quote ∉ s) :
    Spelling (.quoted s) (quote :: (s ++ [quote]))
  | word {w} (h : isPlainName w = true) : Spelling (.word w) w
  | mark {c} (h : c ∈ marks) : Spelling (.mark c) [c]

/-- A text of tokens with blanks around them. -/
inductive Spells : List Token → List Char → Prop
  | nil : Spells [] []
  | blank {tokens c s} (hc : isBlank c = true) (hs : Spells tokens s) : Spells tokens (c :: s)
  | token {t tokens a s} (ht : Spelling t a) (hs : Spells tokens s) :
    Spells (t :: tokens) (a ++ s)

/-! ## Values -/

/-- The key of a field, quoted or not. -/
inductive Key : Token → String → Prop
  | quoted (s) : Key (.quoted s) (String.ofList s)
  | word (w) : Key (.word w) (String.ofList w)

mutual

/-- The tokens of a value, which can be a record only where one may stand. -/
inductive Value : Bool → List Token → Datum → Prop
  | number {outer} (n) : Value outer [.numeral n] (.number n.toFloat)
  | text {outer} (s) : Value outer [.quoted s] (.text (String.ofList s))
  | true {outer} : Value outer [.word "true".toList] (.bool true)
  | false {outer} : Value outer [.word "false".toList] (.bool false)
  | emptyList {outer} : Value outer [.mark '[', .mark ']'] (.list [])
  | list {outer tokens items} (h : Items tokens items) :
    Value outer (.mark '[' :: (tokens ++ [.mark ']'])) (.list items)
  | emptyRecord : Value Bool.true [.mark '{', .mark '}'] (.record [])
  | record {tokens pairs} (h : Pairs tokens pairs) :
    Value Bool.true (.mark '{' :: (tokens ++ [.mark '}'])) (.record (Record.ofPairs pairs))

/-- One or more values with commas between them. -/
inductive Items : List Token → List Datum → Prop
  | one {tokens d} (h : Value Bool.false tokens d) : Items tokens [d]
  | more {tokens items tokens' d} (hitems : Items tokens items)
    (h : Value Bool.false tokens' d) :
    Items (tokens ++ .mark ',' :: tokens') (items ++ [d])

/-- One or more pairs of a key and a value with commas between them. -/
inductive Pairs : List Token → List (String × Datum) → Prop
  | one {t key tokens d} (hkey : Key t key) (h : Value Bool.false tokens d) :
    Pairs (t :: .mark ':' :: tokens) [(key, d)]
  | more {tokens pairs t key tokens' d} (hpairs : Pairs tokens pairs) (hkey : Key t key)
    (h : Value Bool.false tokens' d) :
    Pairs (tokens ++ .mark ',' :: t :: .mark ':' :: tokens') (pairs ++ [(key, d)])

end

/-- The text is a literal of the datum. -/
def Denotes (text : List Char) (d : Datum) : Prop :=
  ∃ tokens, Spells tokens text ∧ Value Bool.true tokens d

end WaveNotebook.Literal
