import Mathlib.Data.List.TakeWhile
import WaveNotebook.Number.Reading
import WaveNotebook.Proofs.Text.Name

/-!
# The grammar of numerals

A numeral is an optional sign, a significand and an optional exponent. The significand is digits
with an optional point and optional further digits, or a point and digits; the exponent is one of
two letters, an optional sign and digits. `scanNumeral` finds a numeral at the front of a text,
and it finds the whole of a numeral that no further digit, point or exponent follows.
-/

namespace WaveNotebook

open Text

/-- An optional sign, and whether it is a minus. -/
inductive Sign : List Char → Bool → Prop
  | absent : Sign [] false
  | plus : Sign ['+'] false
  | minus : Sign ['-'] true

/-- At least one digit and nothing else. -/
def Digits (s : List Char) : Prop :=
  s ≠ [] ∧ ∀ c ∈ s, isDigit c = true

/-- A significand with its digits before and behind the point. -/
inductive Significand : List Char → List Char → List Char → Prop
  | whole {w} (hw : Digits w) : Significand w w []
  | pointed {w f} (hw : Digits w) (hf : ∀ c ∈ f, isDigit c = true) :
    Significand (w ++ '.' :: f) w f
  | fraction {f} (hf : Digits f) : Significand ('.' :: f) [] f

/-- An optional exponent with its value. -/
inductive Exponent : List Char → Int → Prop
  | absent : Exponent [] 0
  | present {letter sign negative ds} (hletter : letter = 'e' ∨ letter = 'E')
    (hsign : Sign sign negative) (hds : Digits ds) :
    Exponent (letter :: (sign ++ ds))
      (if negative then -(digitsValue ds : Int) else digitsValue ds)

/-- The text of a numeral, and the numeral. -/
inductive NumeralText : List Char → Numeral → Prop
  | mk {sign negative significand whole fraction exponent e} (hsign : Sign sign negative)
    (hsignificand : Significand significand whole fraction) (hexponent : Exponent exponent e) :
    NumeralText (sign ++ (significand ++ exponent))
      ⟨negative, digitsValue (whole ++ fraction), e - fraction.length⟩

/-! ## Digits and other characters -/

/-- The blank characters as ranges of code points. -/
def blankClass : CharClass where
  ranges := [(0x09, 0x0D), (0x1C, 0x20), (0x85, 0x85), (0xA0, 0xA0), (0x1680, 0x1680),
    (0x2000, 0x200A), (0x2028, 0x2029), (0x202F, 0x202F), (0x205F, 0x205F), (0x3000, 0x3000)]

/-- The characters that start a plain name, as ranges of code points. -/
def plainStartClass : CharClass where
  ranges := [(0x41, 0x5A), (0x5F, 0x5F), (0x61, 0x7A)]

theorem isBlank_iff_contains (c : Char) : isBlank c = true ↔ blankClass.contains c = true := by
  simp [isBlank, blankClass, CharClass.contains]
  omega

theorem contains_of_isPlainStart {c : Char} (h : isPlainStart c = true) :
    plainStartClass.contains c = true := by
  rw [isPlainStart_iff] at h
  obtain h | rfl := h
  · simp [plainStartClass, CharClass.contains]
    omega
  · decide

/-- A class that keeps clear of the digits of every script. -/
theorem isDigit_eq_false_of_contains {k : CharClass}
    (hclear : ∀ r ∈ k.ranges, ∀ z ∈ digitZeros, z + 10 ≤ r.1 ∨ r.2 < z) {c : Char}
    (hc : k.contains c = true) : isDigit c = false := by
  obtain ⟨r, hr, hrange⟩ := List.any_eq_true.mp hc
  simp only [Bool.and_eq_true, decide_eq_true_eq] at hrange
  unfold isDigit digitValue?
  rw [Option.isSome_map, Option.isSome_eq_false_iff, Option.isNone_iff_eq_none,
    List.find?_eq_none]
  intro z hz
  have hapart := hclear r hr z hz
  simp only [Bool.and_eq_true, decide_eq_true_eq, not_and]
  omega

theorem isDigit_of_isBlank {c : Char} (h : isBlank c = true) : isDigit c = false :=
  isDigit_eq_false_of_contains (by decide) ((isBlank_iff_contains c).mp h)

theorem isDigit_of_isPlainStart {c : Char} (h : isPlainStart c = true) : isDigit c = false :=
  isDigit_eq_false_of_contains (by decide) (contains_of_isPlainStart h)

/-- A text that cannot go on with digits. -/
def NoDigit (s : List Char) : Prop :=
  ∀ c, s.head? = some c → isDigit c = false

/-- A text that no numeral goes on with: not with digits, a point or the letter of an exponent. -/
def NumeralEnds (s : List Char) : Prop :=
  ∀ c, s.head? = some c → isDigit c = false ∧ c ≠ '.' ∧ c ≠ 'e' ∧ c ≠ 'E'

theorem NumeralEnds.noDigit {s : List Char} (h : NumeralEnds s) : NoDigit s :=
  fun c hc ↦ (h c hc).1

theorem spanDigits_append {a s : List Char} (ha : ∀ c ∈ a, isDigit c = true) (hs : NoDigit s) :
    spanDigits (a ++ s) = (a, s) := by
  unfold spanDigits
  rw [List.takeWhile_append_of_pos ha, List.dropWhile_append_of_pos ha]
  cases s with
  | nil => simp
  | cons c cs =>
    have hc := hs c rfl
    simp [hc]

theorem spanDigits_of_noDigit {s : List Char} (hs : NoDigit s) : spanDigits s = ([], s) :=
  spanDigits_append (a := []) (fun _ hc ↦ (List.not_mem_nil hc).elim) hs

/-! ## Numerals are found -/

section

variable {a s : List Char}

theorem scanSign_append {negative : Bool} (h : Sign a negative)
    (hs : ∀ c, s.head? = some c → c ≠ '+' ∧ c ≠ '-') : scanSign (a ++ s) = (negative, s) := by
  cases h with
  | plus => rfl
  | minus => rfl
  | absent =>
    cases s with
    | nil => rfl
    | cons c cs =>
      obtain ⟨hplus, hminus⟩ := hs c rfl
      unfold scanSign
      split
      · rename_i heq
        exact absurd (List.cons.inj heq).1 hplus
      · rename_i heq
        exact absurd (List.cons.inj heq).1 hminus
      · rfl

theorem scanSignificand_of_point {w r : List Char} (h : spanDigits s = (w, '.' :: r)) :
    scanSignificand s = if w.isEmpty && (spanDigits r).1.isEmpty then none
      else some (w, (spanDigits r).1, (spanDigits r).2) := by
  unfold scanSignificand
  rw [h]
  rfl

theorem scanSignificand_of_no_point {w r : List Char} (h : spanDigits s = (w, r))
    (hr : r.head? ≠ some '.') :
    scanSignificand s = if w.isEmpty then none else some (w, [], r) := by
  unfold scanSignificand
  rw [h]
  dsimp only
  split
  · exact absurd rfl hr
  · rfl

theorem scanSignificand_append {whole fraction : List Char} (h : Significand a whole fraction)
    (hs : ∀ c, s.head? = some c → isDigit c = false ∧ c ≠ '.') :
    scanSignificand (a ++ s) = some (whole, fraction, s) := by
  have hdigit : NoDigit s := fun c hc ↦ (hs c hc).1
  have hpoint : ∀ r, NoDigit ('.' :: r) := by
    rintro r c ⟨⟩
    decide
  cases h with
  | whole hw =>
    rw [scanSignificand_of_no_point (spanDigits_append hw.2 hdigit) fun hdot ↦ (hs _ hdot).2 rfl]
    simp [hw.1]
  | pointed hw hf =>
    rw [List.append_assoc, List.cons_append,
      scanSignificand_of_point (spanDigits_append hw.2 (hpoint _)), spanDigits_append hf hdigit]
    simp [hw.1]
  | fraction hf =>
    rw [List.cons_append, scanSignificand_of_point (spanDigits_of_noDigit (hpoint _)),
      spanDigits_append hf.2 hdigit]
    simp [hf.1]

theorem scanExponent_append {e : Int} (h : Exponent a e) (hs : NumeralEnds s) :
    scanExponent (a ++ s) = (e, s) := by
  cases h with
  | absent =>
    cases s with
    | nil => rfl
    | cons c cs =>
      obtain ⟨-, -, hlower, hupper⟩ := hs c rfl
      simp [scanExponent, hlower, hupper]
  | @present letter sign negative ds hletter hsign hds =>
    have hhead : ∀ c, (ds ++ s).head? = some c → c ≠ '+' ∧ c ≠ '-' := by
      intro c hc
      cases ds with
      | nil => exact absurd rfl hds.1
      | cons d ds =>
        cases hc
        have hdigit := hds.2 c List.mem_cons_self
        constructor
        · rintro rfl
          cases hdigit
        · rintro rfl
          cases hdigit
    rw [List.cons_append, scanExponent, if_pos hletter, List.append_assoc,
      scanSign_append hsign hhead]
    dsimp only
    rw [spanDigits_append hds.2 hs.noDigit]
    simp [hds.1]

/-- The front of a significand is a digit or the point, which are no signs. -/
theorem Significand.head {whole fraction : List Char} (h : Significand a whole fraction) :
    ∃ c cs, a = c :: cs ∧ (isDigit c = true ∨ c = '.') := by
  have hdigits : ∀ {w : List Char}, Digits w → ∃ c cs, w = c :: cs ∧ isDigit c = true := by
    intro w hw
    obtain ⟨c, cs, rfl⟩ := List.exists_cons_of_ne_nil hw.1
    exact ⟨c, cs, rfl, hw.2 c List.mem_cons_self⟩
  cases h with
  | whole hw =>
    obtain ⟨c, cs, rfl, hc⟩ := hdigits hw
    exact ⟨c, cs, rfl, .inl hc⟩
  | pointed hw hf =>
    obtain ⟨c, cs, rfl, hc⟩ := hdigits hw
    exact ⟨c, _, rfl, .inl hc⟩
  | fraction hf => exact ⟨'.', _, rfl, .inr rfl⟩

/-- The front of an exponent is its letter, which goes on with no significand. -/
theorem Exponent.head {e : Int} (h : Exponent a e) (hs : NumeralEnds s) :
    ∀ c, (a ++ s).head? = some c → isDigit c = false ∧ c ≠ '.' := by
  cases h with
  | absent => exact fun c hc ↦ ⟨(hs c hc).1, (hs c hc).2.1⟩
  | present hletter hsign hds =>
    rintro c ⟨⟩
    obtain rfl | rfl := hletter
    · decide
    · decide

/-- A numeral is found as a whole, unless what follows goes on with it. -/
theorem scanNumeral_append {n : Numeral} (h : NumeralText a n) (hs : NumeralEnds s) :
    scanNumeral (a ++ s) = some (n, s) := by
  cases h with
  | @mk sign negative significand whole fraction exponent e hsign hsignificand hexponent =>
    have hhead : ∀ c, (significand ++ (exponent ++ s)).head? = some c → c ≠ '+' ∧ c ≠ '-' := by
      obtain ⟨c, cs, rfl, hc⟩ := hsignificand.head
      rintro _ ⟨⟩
      constructor
      · rintro rfl
        revert hc
        decide
      · rintro rfl
        revert hc
        decide
    unfold scanNumeral
    rw [List.append_assoc, List.append_assoc, scanSign_append hsign hhead]
    dsimp only
    rw [scanSignificand_append hsignificand (hexponent.head hs)]
    dsimp only
    rw [scanExponent_append hexponent hs]

end

/-! ## What is found is a numeral -/

section

variable {s r : List Char}

theorem exists_scanSign (s : List Char) : ∃ a, Sign a (scanSign s).1 ∧ s = a ++ (scanSign s).2 := by
  unfold scanSign
  split
  · exact ⟨_, .plus, rfl⟩
  · exact ⟨_, .minus, rfl⟩
  · exact ⟨_, .absent, rfl⟩

theorem spanDigits_fst (s : List Char) : ∀ c ∈ (spanDigits s).1, isDigit c = true :=
  fun _ hc ↦ List.mem_takeWhile_imp hc

theorem append_spanDigits (s : List Char) : (spanDigits s).1 ++ (spanDigits s).2 = s :=
  List.takeWhile_append_dropWhile

theorem exists_scanSignificand {whole fraction : List Char}
    (h : scanSignificand s = some (whole, fraction, r)) :
    ∃ a, Significand a whole fraction ∧ s = a ++ r := by
  have hs := append_spanDigits s
  have hdigits := spanDigits_fst s
  cases hspan : spanDigits s with
  | mk w t =>
    rw [hspan] at hs hdigits
    by_cases hpoint : t.head? = some '.'
    · obtain ⟨u, rfl⟩ := List.head?_eq_some_iff.mp hpoint
      rw [scanSignificand_of_point hspan] at h
      split at h
      · cases h
      · rename_i hempty
        cases h
        have hu := append_spanDigits u
        have hfraction := spanDigits_fst u
        cases whole with
        | nil =>
          exact ⟨_, .fraction ⟨by simpa using hempty, hfraction⟩, by simpa [hu] using hs.symm⟩
        | cons c cs =>
          refine ⟨_, .pointed ⟨List.cons_ne_nil _ _, hdigits⟩ hfraction, ?_⟩
          simpa [hu] using hs.symm
    · rw [scanSignificand_of_no_point hspan hpoint] at h
      split at h
      · cases h
      · rename_i hempty
        cases h
        exact ⟨whole, .whole ⟨by simpa using hempty, hdigits⟩, hs.symm⟩

theorem exists_scanExponent (s : List Char) :
    ∃ a, Exponent a (scanExponent s).1 ∧ s = a ++ (scanExponent s).2 := by
  unfold scanExponent
  split
  · exact ⟨[], .absent, rfl⟩
  · rename_i c cs
    split
    · rename_i hletter
      obtain ⟨sign, hsign, hcs⟩ := exists_scanSign cs
      dsimp only
      split
      · exact ⟨[], .absent, rfl⟩
      · rename_i hempty
        refine ⟨_, .present hletter hsign ⟨by simpa using hempty, spanDigits_fst _⟩, ?_⟩
        rw [List.cons_append, List.append_assoc, append_spanDigits, ← hcs]
    · exact ⟨[], .absent, rfl⟩

theorem exists_scanNumeral {n : Numeral} (h : scanNumeral s = some (n, r)) :
    ∃ a, NumeralText a n ∧ s = a ++ r := by
  unfold scanNumeral at h
  obtain ⟨sign, hsign, hs⟩ := exists_scanSign s
  dsimp only at h
  split at h
  · cases h
  · rename_i whole fraction t hscan
    obtain ⟨significand, hsignificand, ht⟩ := exists_scanSignificand hscan
    obtain ⟨exponent, hexponent, hr⟩ := exists_scanExponent t
    cases h
    refine ⟨_, .mk hsign hsignificand hexponent, ?_⟩
    rw [List.append_assoc, List.append_assoc, ← hr, ← ht, ← hs]

/-- No numeral starts with a character that is no digit, no sign and no point. -/
theorem scanNumeral_eq_none {c : Char} (hdigit : isDigit c = false) (hplus : c ≠ '+')
    (hminus : c ≠ '-') (hpoint : c ≠ '.') (s : List Char) : scanNumeral (c :: s) = none := by
  have hsign : scanSign (c :: s) = (false, c :: s) :=
    scanSign_append .absent (by
      rintro _ ⟨⟩
      exact ⟨hplus, hminus⟩)
  have hspan : spanDigits (c :: s) = ([], c :: s) :=
    spanDigits_of_noDigit (by
      rintro _ ⟨⟩
      exact hdigit)
  unfold scanNumeral
  rw [hsign]
  dsimp only
  rw [scanSignificand_of_no_point hspan (by simpa using hpoint)]
  rfl

/-- The characters of a numeral are digits, signs, a point and the letter of an exponent. -/
theorem NumeralText.isDigit_or_mem {n : Numeral} (h : NumeralText s n) :
    ∀ c ∈ s, isDigit c = true ∨ c ∈ ['+', '-', '.', 'e', 'E'] := by
  have hsign : ∀ {a negative}, Sign a negative → ∀ c ∈ a, c ∈ ['+', '-', '.', 'e', 'E'] := by
    intro a negative ha
    cases ha <;> simp
  cases h with
  | mk hs hsignificand hexponent =>
    intro c hc
    obtain hc | hc := List.mem_append.mp hc
    · exact .inr (hsign hs c hc)
    obtain hc | hc := List.mem_append.mp hc
    · cases hsignificand with
      | whole hw => exact .inl (hw.2 c hc)
      | pointed hw hf =>
        obtain hc | hc := List.mem_append.mp hc
        · exact .inl (hw.2 c hc)
        · obtain rfl | hc := List.mem_cons.mp hc
          · exact .inr (by decide)
          · exact .inl (hf c hc)
      | fraction hf =>
        obtain rfl | hc := List.mem_cons.mp hc
        · exact .inr (by decide)
        · exact .inl (hf.2 c hc)
    · cases hexponent with
      | absent => exact nomatch hc
      | present hletter hs' hds =>
        obtain rfl | hc := List.mem_cons.mp hc
        · exact .inr (by obtain rfl | rfl := hletter <;> decide)
        · obtain hc | hc := List.mem_append.mp hc
          · exact .inr (hsign hs' c hc)
          · exact .inl (hds.2 c hc)

theorem exists_of_readNumber? {x : Float} (h : readNumber? s = some x) :
    ∃ n, NumeralText (trim s) n ∧ x = n.toFloat := by
  unfold readNumber? wholeNumber? at h
  split at h
  · rename_i n hscan
    obtain ⟨a, ha, hs⟩ := exists_scanNumeral hscan
    rw [List.append_nil] at hs
    rw [hs]
    exact ⟨n, ha, (Option.some.inj h).symm⟩
  · cases h

end

end WaveNotebook
