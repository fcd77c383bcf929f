import WaveNotebook.Proofs.Literal.Joined

/-!
# Numbers as literals

The reader of literals and the reader of numbers accept the same texts as numbers: a numeral with
blanks around it. The one looks for tokens, of which a numeral is the longest at its place, and the
other takes the blanks away first and then the whole text.
-/

namespace WaveNotebook

open Text

namespace Literal

variable {text : List Char} {x : Float}

/-- The text is a number if it is one numeral apart from the blanks around it. -/
theorem readNumber?_eq_some_iff :
    readNumber? text = some x ↔ ∃ n, NumeralText (trim text) n ∧ x = n.toFloat := by
  constructor
  · exact exists_of_readNumber?
  · rintro ⟨n, hn, rfl⟩
    have hscan : scanNumeral (trim text) = some (n, []) := by
      rw [← List.append_nil (trim text)]
      exact scanNumeral_append hn fun c hc ↦ nomatch hc
    rw [readNumber?, wholeNumber?, hscan]

theorem trim_of_numeralText {a : List Char} {n : Numeral} (h : NumeralText a n) : trim a = a :=
  trim_of_forall fun c hc ↦ (inert_of_numeralText h c hc).visible

theorem spells_of_blanks {a : List Char} (h : Blanks a) : Spells [] a := by
  induction a with
  | nil => exact .nil
  | cons c a ih =>
    obtain ⟨hc, ha⟩ := blanks_cons_iff.mp h
    exact .blank hc (ih ha)

/-- A numeral is a single token. -/
theorem spells_numeral_iff {n : Numeral} :
    Spells [.numeral n] text ↔ NumeralText (trim text) n := by
  constructor
  · intro h
    obtain ⟨a, numeral, b, rfl, ha, hb, ⟨hn⟩⟩ := h.exists_single
    rw [trim_pad ha hb, trim_of_numeralText hn]
    exact hn
  · intro h
    obtain ⟨a, b, ha, hb, htext⟩ := exists_trim text
    have hmiddle : Spells [.numeral n] (trim text ++ b) := .token (.numeral h) (spells_of_blanks hb)
    rw [htext, List.append_assoc]
    exact (spells_of_blanks ha).append hmiddle

theorem value_number_iff {outer : Bool} {tokens : List Token} :
    Value outer tokens (.number x) ↔ ∃ n, tokens = [.numeral n] ∧ x = n.toFloat := by
  constructor
  · rintro ⟨n⟩
    exact ⟨n, rfl, rfl⟩
  · rintro ⟨n, rfl, rfl⟩
    exact .number n

/-- A number means the same inside of a list or a record as outside. -/
theorem denotesPart_number_iff : DenotesPart text (.number x) ↔ readNumber? text = some x := by
  rw [readNumber?_eq_some_iff]
  constructor
  · rintro ⟨tokens, hspells, hd⟩
    obtain ⟨n, rfl, hx⟩ := value_number_iff.mp hd
    exact ⟨n, spells_numeral_iff.mp hspells, hx⟩
  · rintro ⟨n, hn, hx⟩
    exact ⟨_, spells_numeral_iff.mpr hn, value_number_iff.mpr ⟨n, rfl, hx⟩⟩

theorem read_eq_number_iff : read text = .ok (.number x) ↔ readNumber? text = some x := by
  rw [read_eq_ok_iff_denotes, ← denotesPart_number_iff]
  refine ⟨fun ⟨tokens, hspells, hd⟩ ↦ ⟨tokens, hspells, ?_⟩, DenotesPart.denotes⟩
  exact value_number_iff.mpr (value_number_iff.mp hd)

/-- The data that are no numbers and have literals. -/
inductive NonNumber : Datum → Prop
  | text (s) : NonNumber (.text s)
  | bool (b) : NonNumber (.bool b)
  | list (items) : NonNumber (.list items)
  | record (fields) : NonNumber (.record fields)

theorem Denotes.number_or_nonNumber {d : Datum} (h : Denotes text d) :
    (∃ x, d = .number x) ∨ NonNumber d := by
  obtain ⟨tokens, -, hd⟩ := h
  cases hd with
  | number n => exact .inl ⟨_, rfl⟩
  | text s => exact .inr (.text _)
  | true => exact .inr (.bool _)
  | false => exact .inr (.bool _)
  | emptyList => exact .inr (.list _)
  | list h => exact .inr (.list _)
  | emptyRecord => exact .inr (.record _)
  | record h => exact .inr (.record _)

/-- A text is no number if it is no literal at all or a literal of something else. -/
theorem readNumber?_eq_none_iff :
    readNumber? text = none ↔
      (∃ e, read text = .error e) ∨ ∃ d, read text = .ok d ∧ NonNumber d := by
  constructor
  · intro hnone
    cases hread : read text with
    | error e => exact .inl ⟨e, rfl⟩
    | ok d =>
      refine .inr ⟨d, rfl, (read_eq_ok_iff_denotes.mp hread).number_or_nonNumber.resolve_left ?_⟩
      rintro ⟨x, rfl⟩
      rw [read_eq_number_iff.mp hread] at hnone
      cases hnone
  · intro hother
    rw [Option.eq_none_iff_forall_ne_some]
    intro x hx
    have hread : read text = .ok (.number x) := read_eq_number_iff.mpr hx
    rw [hread] at hother
    obtain ⟨e, ⟨⟩⟩ | ⟨d, ⟨⟩, ⟨⟩⟩ := hother

end Literal

end WaveNotebook
