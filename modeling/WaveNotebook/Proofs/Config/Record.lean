import Mathlib.Algebra.Order.Ring.Int
import WaveNotebook.Config.Basic
import WaveNotebook.Proofs.Conversion

/-!
# Settings of a record

The settings that a record gives are determined by the data under the four keys: a missing key
stands for the default, and nothing else of the record counts. The record is accepted if the four
data are in range. Otherwise it is refused as invalid, with two exceptions: an integer beyond the
doubles cannot be compared with zero as a rate, and an integer with too many digits cannot be shown
in the message of the refusal.
-/

namespace WaveNotebook

namespace Datum

/-- An integer that is farther from zero than every double. -/
def IsHuge (d : Datum) : Prop :=
  ∃ n, d = .integer n ∧ Binary64.ofInt? n = none

theorem toFloat?_of_isHuge {d : Datum} (h : d.IsHuge) : d.toFloat? = .error .hugeInteger := by
  obtain ⟨n, rfl, hn⟩ := h
  change some <$> doubleOf n = _
  unfold doubleOf
  rw [hn]
  rfl

theorem exists_toFloat?_of_not_isHuge {d : Datum} (h : ¬d.IsHuge) : ∃ o, d.toFloat? = .ok o := by
  unfold toFloat?
  split
  · exact ⟨_, rfl⟩
  · rename_i n
    cases hn : Binary64.ofInt? n with
    | none => exact absurd ⟨n, rfl, hn⟩ h
    | some x =>
      unfold doubleOf
      rw [hn]
      exact ⟨some x, rfl⟩
  · exact ⟨_, rfl⟩

theorem finite?_of_isHuge {d : Datum} (h : d.IsHuge) : d.finite? = .error .hugeInteger := by
  unfold finite?
  rw [toFloat?_of_isHuge h]
  rfl

theorem exists_finite?_of_not_isHuge {d : Datum} (h : ¬d.IsHuge) : ∃ o, d.finite? = .ok o := by
  obtain ⟨o, ho⟩ := exists_toFloat?_of_not_isHuge h
  unfold finite?
  rw [ho]
  exact ⟨_, rfl⟩

end Datum

namespace Config

/-- Why a datum is refused: it is invalid, or it is so and cannot be shown. -/
inductive Refuses (d : Datum) : Fault → Prop
  | invalid (fault : SettingFault) : Refuses d (.setting fault)
  | unshowable (h : d.isShowable = false) : Refuses d (.numeric .writtenDigitLimit)

theorem refuses_refusal (fault : String → SettingFault) (d : Datum) :
    Refuses d (refusal fault d) := by
  unfold refusal
  split
  · exact .invalid _
  · rename_i h
    exact .unshowable (Bool.eq_false_iff.mpr h)

/-! ## Single settings -/

theorem rateOf_of_isHuge {d : Datum} (h : d.IsHuge) :
    rateOf d = .error (.numeric .hugeInteger) := by
  unfold rateOf
  rw [Datum.finite?_of_isHuge h]
  rfl

theorem rateOf_ends {d : Datum} (h : ¬d.IsHuge) :
    Ends (Refuses d) (fun x ↦ d.toFloat? = .ok (some x) ∧ isFinite x = true ∧ 0.0 < x)
      (rateOf d) := by
  obtain ⟨o, ho⟩ := Datum.exists_finite?_of_not_isHuge h
  unfold rateOf
  rw [ho]
  cases o with
  | none => exact .error (refuses_refusal _ d)
  | some x =>
    obtain ⟨hx, hfinite⟩ := Datum.finite?_eq_ok_some_iff.mp ho
    change Ends _ _ (if 0.0 < x then Except.ok x else .error (refusal .rate d))
    split
    · rename_i hpos
      exact .ok ⟨hx, hfinite, hpos⟩
    · exact .error (refuses_refusal _ d)

theorem rateOf_eq_ok {d : Datum} {x : Float} (hx : d.toFloat? = .ok (some x))
    (hfinite : isFinite x = true) (hpos : 0.0 < x) : rateOf d = .ok x := by
  unfold rateOf
  rw [Datum.finite?_eq_ok_some_iff.mpr ⟨hx, hfinite⟩]
  exact if_pos hpos

theorem markerOf_ends (d : Datum) :
    Ends (Refuses d) (fun s ↦ d = .text s ∧ ∃ c ∈ s.toList, Text.isBlank c = false)
      (markerOf d) := by
  unfold markerOf
  split
  · rename_i s
    split
    · exact .error (.invalid _)
    · rename_i h
      exact .ok ⟨rfl, by simpa using h⟩
  · exact .error (.invalid _)

theorem markerOf_text {s : String} (h : ∃ c ∈ s.toList, Text.isBlank c = false) :
    markerOf (.text s) = .ok s := by
  unfold markerOf
  exact if_neg (by simpa using h)

theorem wholeOf_ends (least : Int) (fault : String → SettingFault) (d : Datum) :
    Ends (Refuses d) (fun w ↦ Whole.ofDatum? d = some w ∧ least ≤ w.toInt)
      (wholeOf least fault d) := by
  unfold wholeOf
  split
  · rename_i w hw
    split
    · exact .error (refuses_refusal fault d)
    · rename_i h
      exact .ok ⟨hw, Int.not_lt.mp h⟩
  · exact .error (refuses_refusal fault d)

theorem wholeOf_eq_ok {least : Int} {d : Datum} {w : Whole} (hw : Whole.ofDatum? d = some w)
    (h : least ≤ w.toInt) (fault : String → SettingFault) : wholeOf least fault d = .ok w := by
  unfold wholeOf
  rw [hw]
  exact if_neg (Int.not_lt.mpr h)

/-! ## All settings -/

/-- Settings in range. -/
structure Valid (c : Config) : Prop where
  rate_finite : isFinite c.rate = true
  rate_pos : 0.0 < c.rate
  marker_visible : ∃ x ∈ c.marker.toList, Text.isBlank x = false
  preview_nonneg : 0 ≤ c.preview.toInt
  sifts_pos : 1 ≤ c.sifts.toInt

/-- The datum that a record has under the key of a setting, or else the one of the defaults. -/
def settingOf (r : Record) (key : String) : Datum :=
  (r.lookup key).getD ((default.toRecord.lookup key).getD .null)

/-- Each setting is what the record says about it. -/
structure SaidBy (c : Config) (r : Record) : Prop where
  rate : (settingOf r "default_sample_rate").toFloat? = .ok (some c.rate)
  marker : settingOf r "comment_marker" = .text c.marker
  preview : Whole.ofDatum? (settingOf r "preview_samples") = some c.preview
  sifts : Whole.ofDatum? (settingOf r "max_sifts") = some c.sifts

theorem ofRecord_eq (r : Record) :
    ofRecord r = (do
      let rate ← rateOf (settingOf r "default_sample_rate")
      let marker ← markerOf (settingOf r "comment_marker")
      let preview ← wholeOf 0 .preview (settingOf r "preview_samples")
      let sifts ← wholeOf 1 .sifts (settingOf r "max_sifts")
      return ⟨rate, marker, preview, sifts⟩) :=
  rfl

/-- Why a record is refused. -/
inductive Refused (r : Record) : Fault → Prop
  | invalid (fault : SettingFault) : Refused r (.setting fault)
  | hugeRate (h : (settingOf r "default_sample_rate").IsHuge) : Refused r (.numeric .hugeInteger)
  | unshowable {key : String} (hkey : key ∈ keys) (h : (settingOf r key).isShowable = false) :
    Refused r (.numeric .writtenDigitLimit)

theorem Refuses.refused {r : Record} {key : String} (hkey : key ∈ keys) (fault : Fault)
    (h : Refuses (settingOf r key) fault) : Refused r fault := by
  cases h with
  | invalid fault => exact .invalid fault
  | unshowable h => exact .unshowable hkey h

theorem ofRecord_of_isHuge {r : Record} (h : (settingOf r "default_sample_rate").IsHuge) :
    ofRecord r = .error (.numeric .hugeInteger) := by
  rw [ofRecord_eq, rateOf_of_isHuge h]
  rfl

theorem ofRecord_ends (r : Record) :
    Ends (Refused r) (fun c ↦ c.Valid ∧ c.SaidBy r) (ofRecord r) := by
  by_cases hhuge : (settingOf r "default_sample_rate").IsHuge
  · rw [ofRecord_of_isHuge hhuge]
    exact .error (.hugeRate hhuge)
  rw [ofRecord_eq]
  refine ((rateOf_ends hhuge).weaken (Refuses.refused (by decide))).bind fun rate hrate ↦ ?_
  refine ((markerOf_ends _).weaken (Refuses.refused (by decide))).bind fun marker hmarker ↦ ?_
  refine ((wholeOf_ends 0 .preview _).weaken (Refuses.refused (by decide))).bind
    fun preview hpreview ↦ ?_
  refine ((wholeOf_ends 1 .sifts _).weaken (Refuses.refused (by decide))).bind
    fun sifts hsifts ↦ ?_
  exact .ok ⟨⟨hrate.2.1, hrate.2.2, hmarker.2, hpreview.2, hsifts.2⟩,
    ⟨hrate.1, hmarker.1, hpreview.1, hsifts.1⟩⟩

theorem ofRecord_eq_ok {r : Record} {c : Config} (hvalid : c.Valid) (hsaid : c.SaidBy r) :
    ofRecord r = .ok c := by
  rw [ofRecord_eq, rateOf_eq_ok hsaid.rate hvalid.rate_finite hvalid.rate_pos, hsaid.marker,
    markerOf_text hvalid.marker_visible, wholeOf_eq_ok hsaid.preview hvalid.preview_nonneg,
    wholeOf_eq_ok hsaid.sifts hvalid.sifts_pos]
  rfl

/-- A record that holds nothing needs no case of its own: it says the defaults. -/
theorem ofDatum_record (r : Record) : ofDatum (.record r) = ofRecord r := by
  cases r with
  | nil => rfl
  | cons f r => rfl

end Config

end WaveNotebook
