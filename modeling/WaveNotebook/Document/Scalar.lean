import WaveNotebook.Datum

/-!
# Plain scalars

A plain scalar stands for a truth value, a missing value, an integer in one of
five bases, a number with a point, a date, or else for itself. The form of its
characters decides, and its value follows the form. Integers and numbers in base
sixty are written with colons between their digits.
-/

namespace WaveNotebook.Document

/-- What a scalar stands for. -/
inductive ScalarForm
  | text | truth | missing | integer | number | timestamp
  /-- The sign in front of mappings to merge in, and the sign for a default value. -/
  | merge | default
  deriving DecidableEq, Repr

def truthWords : List (String × Bool) :=
  [("yes", true), ("Yes", true), ("YES", true), ("no", false), ("No", false), ("NO", false),
    ("true", true), ("True", true), ("TRUE", true), ("false", false), ("False", false),
    ("FALSE", false), ("on", true), ("On", true), ("ON", true), ("off", false), ("Off", false),
    ("OFF", false)]

def nullWords : List String := ["", "~", "null", "Null", "NULL"]

def isGrouped (p : Char → Bool) (c : Char) : Bool :=
  p c || c == '_'

def isBinary (c : Char) : Bool := c == '0' || c == '1'

def isOctal (c : Char) : Bool := '0' ≤ c && c ≤ '7'

def isHex (c : Char) : Bool :=
  c.isDigit || ('a' ≤ c && c ≤ 'f') || ('A' ≤ c && c ≤ 'F')

/-- Digits of one base, at least one of them, among which underscores may stand. -/
def isRun (p : Char → Bool) (s : List Char) : Bool :=
  !s.isEmpty && s.all (isGrouped p)

/-- The pieces of a text between colons. -/
def colonParts : List Char → List (List Char)
  | [] => [[]]
  | c :: cs =>
    match colonParts cs with
    | p :: ps => if c = ':' then [] :: p :: ps else (c :: p) :: ps
    | [] => [[c]]

/-- A digit of base sixty behind the first one. -/
def isSixtieth (s : List Char) : Bool :=
  match s with
  | [a] => a.isDigit
  | [a, b] => '0' ≤ a && a ≤ '5' && b.isDigit
  | _ => false

/-- Digits that start with one that is no zero. -/
def isDecimal (s : List Char) : Bool :=
  match s with
  | c :: r => '1' ≤ c && c ≤ '9' && r.all (isGrouped Char.isDigit)
  | [] => false

def isIntegerForm (s : List Char) : Bool :=
  match (scanSign s).2 with
  | ['0'] => true
  | '0' :: 'b' :: r => isRun isBinary r
  | '0' :: 'x' :: r => isRun isHex r
  | '0' :: r => isRun isOctal r
  | r =>
    match colonParts r with
    | first :: others => isDecimal first && others.all isSixtieth
    | [] => false

/-- An exponent with its sign, or nothing. -/
def isExponent : List Char → Bool
  | [] => true
  | e :: sign :: ds =>
    (e == 'e' || e == 'E') && (sign == '+' || sign == '-') && !ds.isEmpty &&
      ds.all Char.isDigit
  | _ => false

/-- Digits, of which the first one is no underscore. -/
def startsDigit (s : List Char) : Bool :=
  (s.head?.map Char.isDigit).getD false

/-- The digits of a last part with a point, and no exponent. -/
def isSixtiethPointed (s : List Char) : Bool :=
  match s.span (· != '.') with
  | (whole, '.' :: r) => isSixtieth whole && r.all (isGrouped Char.isDigit)
  | _ => false

def isPointedForm (s : List Char) : Bool :=
  let isDigitOrGroup := isGrouped Char.isDigit
  match (scanSign s).2.span isDigitOrGroup with
  | ([], '.' :: r) =>
    s.head? == some '.' && startsDigit r && isExponent (r.dropWhile isDigitOrGroup)
  | (whole, '.' :: r) => startsDigit whole && isExponent (r.dropWhile isDigitOrGroup)
  | _ => false

def isSixtyForm (s : List Char) : Bool :=
  match colonParts (scanSign s).2 with
  | first :: second :: others =>
    startsDigit first && first.all (isGrouped Char.isDigit) &&
      ((second :: others).dropLast).all isSixtieth &&
      isSixtiethPointed (((second :: others).getLast?).getD [])
  | _ => false

def infinityWords : List String := [".inf", ".Inf", ".INF"]

def undefinedWords : List String := [".nan", ".NaN", ".NAN"]

def isNumberForm (s : List Char) : Bool :=
  isPointedForm s || isSixtyForm s ||
    infinityWords.contains (String.ofList (scanSign s).2) ||
    undefinedWords.contains (String.ofList s)

/-- A number of digits between two bounds at the front, and the rest. -/
def digits? (least most : Nat) (s : List Char) : Option (Nat × List Char) :=
  let ds := (s.take most).takeWhile Char.isDigit
  if ds.length < least then none else some (Text.digitsValue ds, s.drop ds.length)

/-- The rest behind a character. -/
def behind? (c : Char) : List Char → Option (List Char)
  | x :: r => if x = c then some r else none
  | [] => none

/-- A moment by its parts; the fraction of the second in digits, the distance from universal
time in minutes. -/
structure Moment where
  year : Nat
  month : Nat
  day : Nat
  hour : Nat
  minute : Nat
  second : Nat
  fraction : List Char
  zone : Option Int

inductive Timestamp
  | day (year month day : Nat)
  | moment (m : Moment)

def day? (width : Nat) (s : List Char) : Option ((Nat × Nat × Nat) × List Char) := do
  let (y, r) ← digits? 4 4 s
  let (m, r) ← digits? width 2 (← behind? '-' r)
  let (d, r) ← digits? width 2 (← behind? '-' r)
  return ((y, m, d), r)

/-- The zone at the end of a moment, if the text is one. -/
def zone? (s : List Char) : Option (Option Int) :=
  match s.dropWhile fun c => c == ' ' || c == '\t' with
  | [] => if s.isEmpty then some none else none
  | ['Z'] => some (some 0)
  | c :: r =>
    if c = '+' ∨ c = '-' then do
      let (hours, r) ← digits? 1 2 r
      let (minutes, r) ← match r with
        | ':' :: r => digits? 2 2 r
        | r => some (0, r)
      if !r.isEmpty then none
      else
        let total : Int := hours * 60 + minutes
        return some (if c = '-' then -total else total)
    else none

def moment? (s : List Char) : Option Moment := do
  let ((year, month, day), r) ← day? 1 s
  let r ← match r with
    | 'T' :: r | 't' :: r => some r
    | ' ' :: r | '\t' :: r => some (r.dropWhile fun c => c == ' ' || c == '\t')
    | _ => none
  let (hour, r) ← digits? 1 2 r
  let (minute, r) ← digits? 2 2 (← behind? ':' r)
  let (second, r) ← digits? 2 2 (← behind? ':' r)
  let (fraction, r) := match r with
    | '.' :: r => r.span Char.isDigit
    | r => ([], r)
  return ⟨year, month, day, hour, minute, second, fraction, ← zone? r⟩

def timestamp? (s : List Char) : Option Timestamp :=
  match day? 2 s with
  | some ((y, m, d), []) => some (.day y m d)
  | _ => (moment? s).map .moment

/-- The form of a plain scalar. -/
def formOf (s : List Char) : ScalarForm :=
  let word := String.ofList s
  if (truthWords.lookup word).isSome then .truth
  else if nullWords.contains word then .missing
  else if isNumberForm s then .number
  else if isIntegerForm s then .integer
  else if word = "<<" then .merge
  else if (timestamp? s).isSome then .timestamp
  else if word = "=" then .default
  else .text

/-- The value of a character as a digit. -/
def digitOf (c : Char) : Nat :=
  if c.isDigit then c.toNat - 48
  else if 'a' ≤ c then c.toNat - 87
  else c.toNat - 55

/-- Digits in a base, at least one; they are shown in a fault as a given text. -/
def inBase (base : Nat) (written s : List Char) : Except NumericFault Nat :=
  if s.isEmpty || !s.all (fun c => isHex c && digitOf c < base) then
    .error (.integerText base (Datum.quotedText (String.ofList written)))
  else .ok (s.foldl (fun acc c => base * acc + digitOf c) 0)

/-- An integer in base ten. -/
def decimalPart (s : List Char) : Except NumericFault Int :=
  match readInteger? s with
  | some n => if Datum.mostDigits < s.length then .error (.digitLimit s.length) else .ok n
  | none => .error (.integerText 10 (Datum.quotedText (String.ofList s)))

/-- The value of an integer without a sign, in the base that its start tells, or in base sixty. -/
def magnitudeOf : List Char → Except NumericFault Int
  | [] => .error (.lookup (.place "string"))
  | ['0'] => .ok 0
  | '0' :: 'b' :: ds => (inBase 2 ds ds).map Int.ofNat
  | '0' :: 'x' :: ds => (inBase 16 ds ds).map Int.ofNat
  | '0' :: ds => (inBase 8 ('0' :: ds) ds).map Int.ofNat
  | s => ((colonParts s).mapM decimalPart).map fun ps => ps.foldl (fun acc p => 60 * acc + p) 0

/-- The value of an integer, which underscores may group. -/
def integerOf (s : List Char) : Except NumericFault Int := do
  let s := s.filter (· != '_')
  let (negative, r) := scanSign s
  let magnitude ← magnitudeOf r
  return if negative then -magnitude else magnitude

def numberPart (s : List Char) : Except NumericFault Float :=
  match readFloat? s with
  | some x => .ok x
  | none => .error (.notNumeric (Datum.quotedText (String.ofList s)))

/-- The sum of digits in base sixty, from the last one on. -/
def inBaseSixty (parts : List Float) : Except NumericFault Float := do
  let (sum, _) ← parts.reverse.foldlM (fun (acc : Float × Int) p =>
    match Binary64.ofInt? acc.2 with
    | some base => .ok (acc.1 + p * base, acc.2 * 60)
    | none => .error .hugeInteger) (0.0, (1 : Int))
  return sum

/-- The value of a number with a point, or in base sixty. -/
def numberOf (s : List Char) : Except NumericFault Float := do
  let s := (s.filter (· != '_')).map Char.toLower
  let (negative, r) := scanSign s
  let sign : Float := if negative then -1.0 else 1.0
  if s.isEmpty then .error (.lookup (.place "string"))
  else if r = ['.', 'i', 'n', 'f'] then
    return Binary64.ofCode negative Binary64.infinityCode
  else if r = ['.', 'n', 'a', 'n'] then return Binary64.notANumber
  else
    match colonParts r with
    | [p] => return sign * (← numberPart p)
    | parts => return sign * (← inBaseSixty (← parts.mapM numberPart))

/-- The truth value that a word is, in any case of its letters. -/
def truthOf (s : List Char) : Except NumericFault Bool :=
  let word := String.ofList (s.map Char.toLower)
  match truthWords.lookup word with
  | some b => .ok b
  | none => .error (.lookup (.key (Datum.quotedText word)))

def isLeapYear (y : Nat) : Bool :=
  y % 4 == 0 && (y % 100 != 0 || y % 400 == 0)

def daysIn (year month : Nat) : Nat :=
  if month = 2 then if isLeapYear year then 29 else 28
  else if month = 4 ∨ month = 6 ∨ month = 9 ∨ month = 11 then 30
  else 31

/-- The fault of parts that make no date, or of a time of day out of range. -/
def dateFault? (year month day : Nat) : Option DateFault :=
  if year < 1 then some (.year year)
  else if month < 1 ∨ 12 < month then some .month
  else if day < 1 ∨ daysIn year month < day then some .day
  else none

def timeFault? (m : Moment) : Option DateFault :=
  if 23 < m.hour then some .hour
  else if 59 < m.minute then some .minute
  else if 59 < m.second then some .second
  else none

/-- Numbers between parentheses. -/
def argumentsText (ns : List Nat) : String :=
  ", ".intercalate (ns.map natText)

/-- The six digits of a fraction of a second. -/
def microseconds (fraction : List Char) : Nat :=
  let ds := fraction.take 6
  Text.digitsValue (ds ++ List.replicate (6 - ds.length) '0')

/-- The written form of a time span of so many minutes. -/
def spanText (minutes : Int) : String :=
  let seconds := minutes * 60
  let days := seconds.fdiv 86400
  let rest := seconds.fmod 86400
  let parts := (if days = 0 then [] else ["days=" ++ intText days]) ++
    (if rest = 0 then [] else ["seconds=" ++ intText rest])
  "datetime.timedelta(" ++ (if parts.isEmpty then "0" else ", ".intercalate parts) ++ ")"

def zoneText (minutes : Int) : String :=
  if minutes = 0 then "datetime.timezone.utc"
  else "datetime.timezone(" ++ spanText minutes ++ ")"

def zoneFault? : Option Int → Option DateFault
  | some z => if z.natAbs < 1440 then none else some (.zone (spanText z ++ "."))
  | none => none

/-- The written form of a moment: parts behind the minute are left out while they are zero. -/
def momentText (m : Moment) : String :=
  let micro := microseconds m.fraction
  let late := if micro = 0 then (if m.second = 0 then [] else [m.second]) else [m.second, micro]
  "datetime.datetime(" ++ argumentsText ([m.year, m.month, m.day, m.hour, m.minute] ++ late) ++
    (match m.zone with
      | some z => ", tzinfo=" ++ zoneText z
      | none => "") ++ ")"

/-- A date as a datum, known by its written form. -/
def timestampOf : Timestamp → Except DateFault Datum
  | .day y m d =>
    match dateFault? y m d with
    | some fault => .error fault
    | none => .ok (.ofType "date" ("datetime.date(" ++ argumentsText [y, m, d] ++ ")"))
  | .moment m =>
    match ((zoneFault? m.zone).or (dateFault? m.year m.month m.day)).or (timeFault? m) with
    | some fault => .error fault
    | none => .ok (.ofType "datetime" (momentText m))

end WaveNotebook.Document
