import WaveNotebook.Datum
import WaveNotebook.Text.Part

/-!
# Settings

Four settings shared by all statements of a notebook: the rate of sounds that
name none, the text that starts a comment, how many samples a printed signal
shows, and the cap on sifting. Settings come from a record; a missing key keeps
its default and an unknown key has no effect. The checks run in a fixed order,
so the first setting out of range decides the fault.
-/

namespace WaveNotebook

/-- A whole number, for which a truth value can stand. -/
inductive Whole
  | integer (n : Int)
  | flag (b : Bool)
  deriving DecidableEq, Repr

namespace Whole

def toInt : Whole → Int
  | integer n => n
  | flag b => if b then 1 else 0

def toDatum : Whole → Datum
  | integer n => .integer n
  | flag b => .bool b

def ofDatum? : Datum → Option Whole
  | .integer n => some (integer n)
  | .bool b => some (flag b)
  | _ => none

end Whole

structure Config where
  rate : Float
  marker : String
  preview : Whole
  sifts : Whole

namespace Config

def default : Config :=
  ⟨44100.0, "//", .integer 5, .integer 100⟩

/-- The fault of a setting whose message shows the datum, if the datum can be shown. -/
def refusal (fault : String → SettingFault) (d : Datum) : Fault :=
  if d.isShowable then .setting (fault d.shown) else .numeric .writtenDigitLimit

def rateOf (d : Datum) : Except Fault Float := do
  match ← d.finite?.mapError Fault.numeric with
  | some x => if 0.0 < x then return x else .error (refusal .rate d)
  | none => .error (refusal .rate d)

/-- A text with a character that is not blank. -/
def markerOf : Datum → Except Fault String
  | .text s => if s.toList.all Text.isBlank then .error (.setting .marker) else .ok s
  | _ => .error (.setting .marker)

/-- A whole number that is not below a bound. -/
def wholeOf (least : Int) (fault : String → SettingFault) (d : Datum) : Except Fault Whole :=
  match Whole.ofDatum? d with
  | some w => if w.toInt < least then .error (refusal fault d) else .ok w
  | none => .error (refusal fault d)

/-- The settings as a record. -/
def toRecord (c : Config) : Record :=
  [("default_sample_rate", .number c.rate), ("comment_marker", .text c.marker),
    ("preview_samples", c.preview.toDatum), ("max_sifts", c.sifts.toDatum)]

/-- The settings of a record. -/
def ofRecord (r : Record) : Except Fault Config := do
  let setting (key : String) (fallback : Datum) := (r.lookup key).getD fallback
  let rate ← rateOf (setting "default_sample_rate" (.number default.rate))
  let marker ← markerOf (setting "comment_marker" (.text default.marker))
  let preview ← wholeOf 0 .preview (setting "preview_samples" default.preview.toDatum)
  let sifts ← wholeOf 1 .sifts (setting "max_sifts" default.sifts.toDatum)
  return ⟨rate, marker, preview, sifts⟩

/-- The names of the settings. -/
def keys : List String := default.toRecord.map (·.1)

/-- The settings of a datum that holds something. Settings are looked up in a record; a list or
a text that holds the name of a setting cannot be looked into, and anything else does not even
hold names. -/
def ofContent : Datum → Except Fault Config
  | .record fields => ofRecord fields
  | .list items =>
    if items.any fun d => keys.any fun key => d.isText key then
      .error (.numeric (.type (.listIndex "list" "str")))
    else .ok default
  | .text s =>
    if keys.any fun key => Text.holds key.toList s.toList then
      .error (.numeric (.type (.characterIndex "str")))
    else .ok default
  | d => .error (.numeric (.type (.noMembers d.typeName)))

/-- The settings of a datum; one that holds nothing has the defaults. -/
def ofDatum (d : Datum) : Except Fault Config :=
  if d.isTruthy then ofContent d else .ok default

end Config

end WaveNotebook
