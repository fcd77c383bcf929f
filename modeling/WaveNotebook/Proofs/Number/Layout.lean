import WaveNotebook.Number.Layout
import WaveNotebook.Proofs.Literal.Number
import WaveNotebook.Proofs.Number.Decimal

/-!
# Printed numbers read back

The text of a number is a numeral in each of its layouts: with the point among the digits, with
zeros between the point and the digits, with an exponent, or with all digits of an integer. Behind
an integral significand a fraction of one zero is written, so that the numeral that is read is
not always the one that was written; but the two have one value. So the text of a finite double is
read as this double, and what the notebook prints for it is read as the same number.
-/

namespace WaveNotebook

open Text

/-! ## Digits -/

namespace Text

theorem isDigit_digitChar (d : ℕ) : isDigit (digitChar d) = true := by
  rw [isDigit, digitValue?_digitChar]
  rfl

theorem digitsValue_append (a b : List Char) :
    digitsValue (a ++ b) = digitsValue a * 10 ^ b.length + digitsValue b := by
  have key : ∀ n, b.foldl (fun acc c ↦ 10 * acc + (digitValue? c).getD 0) n =
      n * 10 ^ b.length + digitsValue b := by
    induction b with
    | nil => simp [digitsValue]
    | cons c b ih =>
      intro n
      rw [digitsValue, List.foldl_cons, List.foldl_cons, ih, ih, List.length_cons]
      ring
  rw [digitsValue, List.foldl_append, key]
  rfl

theorem digitsValue_zeros (k : ℕ) : digitsValue (List.replicate k '0') = 0 := by
  induction k with
  | zero => rfl
  | succ k ih =>
    rw [List.replicate_succ', digitsValue_append, ih]
    rfl

theorem digitsValue_digitsOf (n : ℕ) : digitsValue (digitsOf n) = n := by
  have hdigit : ∀ d, digitsValue [digitChar d] = d % 10 := by
    intro d
    simp [digitsValue, digitValue?_digitChar]
  induction n using digitsOf.induct with
  | case1 n hn =>
    rw [digitsOf, if_pos hn, hdigit, Nat.mod_eq_of_lt hn]
  | case2 n hn ih =>
    rw [digitsOf, if_neg hn, digitsValue_append, ih, hdigit]
    exact Nat.div_add_mod' n 10

end Text

theorem digits_singleton {c : Char} (hc : isDigit c = true) : Digits [c] :=
  ⟨List.cons_ne_nil _ _, List.forall_mem_singleton.mpr hc⟩

theorem digits_digitsOf (n : ℕ) : Digits (digitsOf n) := by
  induction n using digitsOf.induct with
  | case1 n hn =>
    rw [digitsOf, if_pos hn]
    exact digits_singleton (isDigit_digitChar n)
  | case2 n hn ih =>
    rw [digitsOf, if_neg hn]
    refine ⟨List.append_ne_nil_of_left_ne_nil ih.1 _, List.forall_mem_append.mpr ⟨ih.2, ?_⟩⟩
    exact List.forall_mem_singleton.mpr (isDigit_digitChar n)

theorem forall_mem_zeros (k : ℕ) : ∀ c ∈ List.replicate k '0', isDigit c = true := by
  intro c hc
  rw [List.eq_of_mem_replicate hc]
  decide

theorem sign_signText (negative : Bool) : Sign (signText negative) negative := by
  cases negative with
  | false => exact .absent
  | true => exact .minus

/-! ## Layouts -/

namespace NumberStyle

variable (negative : Bool)

theorem exponent_exponentText (style : NumberStyle) (e : ℤ) :
    Exponent (style.exponentText e) e := by
  let zeros := List.replicate (style.exponentWidth - (digitsOf e.natAbs).length) '0'
  have hdigits : Digits (zeros ++ digitsOf e.natAbs) :=
    ⟨List.append_ne_nil_of_right_ne_nil _ (digits_digitsOf _).1,
      List.forall_mem_append.mpr ⟨forall_mem_zeros _, (digits_digitsOf _).2⟩⟩
  have hvalue : digitsValue (zeros ++ digitsOf e.natAbs) = e.natAbs := by
    rw [digitsValue_append, digitsValue_zeros, digitsValue_digitsOf, Nat.zero_mul, Nat.zero_add]
  have hsign : Sign [if e < 0 then '-' else '+'] (decide (e < 0)) := by
    split
    · rename_i h
      rw [decide_eq_true h]
      exact .minus
    · rename_i h
      rw [decide_eq_false h]
      exact .plus
  have hexponent := Exponent.present (.inl rfl) hsign hdigits
  rw [hvalue] at hexponent
  have he : (if decide (e < 0) = true then -(e.natAbs : ℤ) else e.natAbs) = e := by
    simp only [decide_eq_true_eq]
    split <;> omega
  rwa [he] at hexponent

theorem numeralText_pointed {w f : List Char} (hw : Digits w) (hf : ∀ c ∈ f, isDigit c = true) :
    NumeralText (signText negative ++ (w ++ '.' :: f))
      ⟨negative, digitsValue (w ++ f), -f.length⟩ := by
  have h := NumeralText.mk (sign_signText negative) (.pointed hw hf) .absent
  rwa [List.append_nil, Int.zero_sub] at h

variable {ds : List Char} (hds : Digits ds)

include hds

/-- One digit stands before the point and the others, if any, behind it. -/
theorem numeralText_scientific (style : NumberStyle) (e : ℤ) :
    NumeralText (signText negative ++ style.scientific ds e)
      ⟨negative, digitsValue ds, e - (ds.length - 1 : ℕ)⟩ := by
  obtain ⟨hne, hdigits⟩ := hds
  obtain ⟨d, rest, rfl⟩ := List.exists_cons_of_ne_nil hne
  obtain ⟨hd, hrest⟩ := List.forall_mem_cons.mp hdigits
  have hhead := digits_singleton hd
  have hsign := sign_signText negative
  have hexponent := style.exponent_exponentText e
  cases rest with
  | nil => exact .mk hsign (.whole hhead) hexponent
  | cons d' rest => exact .mk hsign (.pointed hhead hrest) hexponent

theorem numeralText_positional_of_nonpos {k : ℤ} (hk : k ≤ 0) :
    NumeralText (signText negative ++ positional ds k)
      ⟨negative, digitsValue ds, k - ds.length⟩ := by
  have hwhole := digits_singleton (c := '0') rfl
  have hfraction := List.forall_mem_append.mpr ⟨forall_mem_zeros (-k).toNat, hds.2⟩
  have hvalue : digitsValue (['0'] ++ (List.replicate (-k).toNat '0' ++ ds)) = digitsValue ds := by
    rw [← List.append_assoc, ← List.replicate_one, List.replicate_append_replicate,
      digitsValue_append, digitsValue_zeros, Nat.zero_mul, Nat.zero_add]
  have hexponent : -((List.replicate (-k).toNat '0' ++ ds).length : ℤ) = k - ds.length := by
    rw [List.length_append, List.length_replicate]
    omega
  have h := numeralText_pointed negative hwhole hfraction
  rw [hvalue, hexponent] at h
  rwa [positional, if_pos hk, List.append_assoc]

theorem numeralText_positional_of_lt {k : ℤ} (hk : 0 < k) (hlength : k.toNat < ds.length) :
    NumeralText (signText negative ++ positional ds k)
      ⟨negative, digitsValue ds, k - ds.length⟩ := by
  have hwhole : Digits (ds.take k.toNat) := by
    refine ⟨?_, fun c hc ↦ hds.2 c (List.mem_of_mem_take hc)⟩
    rw [ne_eq, List.take_eq_nil_iff, not_or]
    exact ⟨by omega, hds.1⟩
  have hfraction : ∀ c ∈ ds.drop k.toNat, isDigit c = true :=
    fun c hc ↦ hds.2 c (List.mem_of_mem_drop hc)
  have h := numeralText_pointed negative hwhole hfraction
  have hexponent : -((ds.length - k.toNat : ℕ) : ℤ) = k - ds.length := by omega
  rw [List.take_append_drop, List.length_drop, hexponent] at h
  rwa [positional, if_neg (by omega), if_neg (by omega)]

/-- Behind an integral significand stands a fraction of one zero. -/
theorem numeralText_positional_of_le {k : ℤ} (hk : 0 < k) (hlength : ds.length ≤ k.toNat) :
    NumeralText (signText negative ++ positional ds k)
      ⟨negative, digitsValue ds * 10 ^ (k.toNat - ds.length + 1), -1⟩ := by
  have hwhole : Digits (ds ++ List.replicate (k.toNat - ds.length) '0') :=
    ⟨List.append_ne_nil_of_left_ne_nil hds.1 _,
      List.forall_mem_append.mpr ⟨hds.2, forall_mem_zeros _⟩⟩
  have hvalue : digitsValue (ds ++ List.replicate (k.toNat - ds.length) '0' ++ ['0']) =
      digitsValue ds * 10 ^ (k.toNat - ds.length + 1) := by
    rw [List.append_assoc, ← List.replicate_succ', digitsValue_append, digitsValue_zeros,
      List.length_replicate, Nat.add_zero]
  have h := numeralText_pointed negative hwhole (forall_mem_zeros 1)
  rw [List.replicate_one, hvalue] at h
  rwa [positional, if_neg (by omega), if_pos hlength]

end NumberStyle

/-! ## Texts -/

/-- A text is a numeral with a given value. -/
def DenotesNumber (s : List Char) (x : Float) : Prop :=
  ∃ n, NumeralText s n ∧ n.toFloat = x

theorem DenotesNumber.readNumber? {s : List Char} {x : Float} (h : DenotesNumber s x) :
    readNumber? s = some x := by
  obtain ⟨n, hn, rfl⟩ := h
  refine Literal.readNumber?_eq_some_iff.mpr ⟨n, ?_, rfl⟩
  rwa [Literal.trim_of_numeralText hn]

theorem DenotesNumber.visible {s : List Char} {x : Float} (h : DenotesNumber s x) :
    ∀ c ∈ s, isBlank c = false := by
  obtain ⟨n, hn, -⟩ := h
  exact fun c hc ↦ (Literal.inert_of_numeralText hn c hc).visible

/-- The text of a numeral is a numeral of the same value, if the exponents with positional
notation are those of finite numbers. -/
theorem NumberStyle.denotesNumber_text (style : NumberStyle) (hstyle : style.positionalBelow ≤ 310)
    (n : Numeral) : DenotesNumber (style.text n) n.toFloat := by
  obtain ⟨negative, m, exponent⟩ := n
  have hds := digits_digitsOf m
  have hlength : 0 < (digitsOf m).length := List.length_pos_of_ne_nil hds.1
  -- what a layout reads if it has the digits and the exponent of the numeral
  have hsame : ∀ {s : List Char} {e : ℤ}, NumeralText s ⟨negative, digitsValue (digitsOf m), e⟩ →
      e = exponent → DenotesNumber s (Numeral.toFloat ⟨negative, m, exponent⟩) := by
    rintro s _ h rfl
    rw [digitsValue_digitsOf] at h
    exact ⟨_, h, rfl⟩
  unfold NumberStyle.text
  dsimp only
  split
  · rename_i hzero
    have h := numeralText_pointed negative (digits_singleton (c := '0') rfl) (forall_mem_zeros 1)
    have hvalue : digitsValue (['0'] ++ List.replicate 1 '0') = 0 := digitsValue_zeros 2
    rw [hvalue] at h
    refine ⟨_, h, congrArg (Binary64.ofCode negative) ?_⟩
    rw [hzero, Numeral.magnitudeCode_zero, Numeral.magnitudeCode_zero]
  · split
    · rename_i hrange
      by_cases hleading : exponent + (digitsOf m).length ≤ 0
      · exact hsame (numeralText_positional_of_nonpos negative hds (by omega)) (by omega)
      · by_cases hinner : exponent < 0
        · exact hsame (numeralText_positional_of_lt negative hds (by omega) (by omega)) (by omega)
        · have hnat : exponent = (exponent.toNat : ℤ) := by omega
          have hk : (exponent + (digitsOf m).length - 1 + 1).toNat - (digitsOf m).length =
              exponent.toNat := by omega
          have h := numeralText_positional_of_le negative hds
            (k := exponent + (digitsOf m).length - 1 + 1) (by omega) (by omega)
          rw [digitsValue_digitsOf] at h
          refine ⟨_, h, ?_⟩
          rw [hk, Numeral.toFloat_zero_behind _ _ (by omega), ← hnat]
    · exact hsame (numeralText_scientific negative hds style _) (by omega)

/-- The text of a finite double reads back as this double. -/
theorem denotesNumber_numberText {x : Float} (hx : Binary64.isFinite x = true) :
    DenotesNumber (numberText x) x := by
  have h := numberStyle.denotesNumber_text (by decide) (Numeral.shortest x)
  rw [(Numeral.readsBack_shortest hx).toFloat_eq] at h
  rwa [numberText, if_pos hx]

theorem denotesNumber_integerText (n : ℤ) :
    DenotesNumber (integerText n) (Binary64.ofCode (n < 0) (Binary64.nearestCode n.natAbs 1)) := by
  have h := NumeralText.mk (sign_signText (n < 0)) (.whole (digits_digitsOf n.natAbs)) .absent
  rw [List.append_nil, digitsValue_digitsOf] at h
  exact ⟨_, h, congrArg (Binary64.ofCode _) (Numeral.magnitudeCode_natCast _ _)⟩

/-- What a notebook prints for a finite double is read as the same number. -/
theorem exists_denotesNumber_valueText {x : Float} (hx : Binary64.isFinite x = true) :
    ∃ z, DenotesNumber (valueText x) z ∧ Binary64.Same z x := by
  unfold valueText
  split
  · rename_i hinteger
    exact ⟨_, denotesNumber_integerText _, Binary64.same_truncate hinteger⟩
  · exact ⟨x, denotesNumber_numberText hx, .inl rfl⟩

end WaveNotebook
