import Mathlib
import WaveNotebook.Proofs.Document.Cursor
import WaveNotebook.Proofs.Number.Layout
import WaveNotebook.Proofs.Number.Rounding

/-!
# Numbers as plain scalars

A finite number above zero is written with a point between digits and perhaps an exponent with a
sign, and an integer that is not negative is written in its digits. Both have the form of what they
are, and their value is read from them; for an integer this needs that it has no more digits than
the reader takes.
-/

namespace WaveNotebook

open Text

/-! ## Latin digits -/

def latinDigits : List Char :=
  ['0', '1', '2', '3', '4', '5', '6', '7', '8', '9']

/-- The characters of a number with a point. -/
def numberChars : List Char :=
  latinDigits ++ ['.', 'e', '+', '-']

theorem latinDigits_subset : latinDigits ⊆ numberChars :=
  List.subset_append_left _ _

theorem digitChar_mem (d : ℕ) : digitChar d ∈ latinDigits := by
  have key : ∀ k : Fin 10, digitChar k ∈ latinDigits := by decide
  have h := key ⟨d % 10, Nat.mod_lt d (by decide)⟩
  simpa [digitChar] using h

theorem isDigit_of_mem {c : Char} (h : c ∈ latinDigits) : c.isDigit = true := by
  have key : latinDigits.all Char.isDigit = true := by decide
  exact List.all_eq_true.mp key c h

theorem zeros_subset (k : ℕ) : List.replicate k '0' ⊆ latinDigits := by
  intro c hc
  rw [List.eq_of_mem_replicate hc]
  decide

theorem digitsOf_subset (n : ℕ) : digitsOf n ⊆ latinDigits := by
  induction n using digitsOf.induct with
  | case1 n hn =>
    rw [digitsOf, if_pos hn]
    exact List.cons_subset.mpr ⟨digitChar_mem n, List.nil_subset _⟩
  | case2 n hn ih =>
    rw [digitsOf, if_neg hn]
    exact List.append_subset.mpr
      ⟨ih, List.cons_subset.mpr ⟨digitChar_mem n, List.nil_subset _⟩⟩

theorem length_digitsOf_le {n k : ℕ} (hk : k ≠ 0) (hn : n < Nat.pow 10 k) :
    (digitsOf n).length ≤ k := by
  induction n using digitsOf.induct generalizing k with
  | case1 n hsmall =>
    rw [digitsOf, if_pos hsmall]
    exact Nat.one_le_iff_ne_zero.mpr hk
  | case2 n hlarge ih =>
    obtain ⟨k, rfl⟩ := Nat.exists_eq_succ_of_ne_zero hk
    have hk : k ≠ 0 := by
      rintro rfl
      exact hlarge hn
    have hinit : n / 10 < Nat.pow 10 k := Nat.div_lt_of_lt_mul (Nat.mul_comm _ 10 ▸ hn)
    rw [digitsOf, if_neg hlarge, List.length_append, List.length_singleton]
    exact Nat.succ_le_succ (ih hk hinit)

/-- Only zero starts with a zero. -/
theorem head?_digitsOf {n : ℕ} (hn : n ≠ 0) : (digitsOf n).head? ≠ some '0' := by
  induction n using digitsOf.induct with
  | case1 n hsmall =>
    have key : ∀ k : Fin 10, k.val ≠ 0 → digitChar k ≠ '0' := by decide
    rw [digitsOf, if_pos hsmall]
    exact fun h ↦ key ⟨n, hsmall⟩ hn (Option.some.inj h)
  | case2 n hlarge ih =>
    obtain ⟨c, cs, hcs⟩ := List.exists_cons_of_ne_nil (digits_digitsOf (n / 10)).1
    have hhead := ih (by omega)
    rw [digitsOf, if_neg hlarge]
    rw [hcs] at hhead ⊢
    exact hhead

/-! ## Layouts of numbers -/

/-- An exponent with its sign, or nothing. -/
def SignedExponent (s : List Char) : Prop :=
  s = [] ∨ ∃ sign ds, (sign = '+' ∨ sign = '-') ∧ ds ≠ [] ∧ ds ⊆ latinDigits ∧
    s = 'e' :: sign :: ds

/-- Digits, a point, further digits and perhaps an exponent. -/
inductive PointedText : List Char → Prop
  | mk {whole fraction exponent} (hne : whole ≠ []) (hwhole : whole ⊆ latinDigits)
    (hfraction : fraction ⊆ latinDigits) (hexponent : SignedExponent exponent) :
    PointedText (whole ++ '.' :: (fraction ++ exponent))

theorem PointedText.exists_digit {s : List Char} (h : PointedText s) :
    ∃ c r, s = c :: r ∧ c ∈ latinDigits := by
  obtain ⟨hne, hwhole, -, -⟩ := h
  obtain ⟨c, w, rfl⟩ := List.exists_cons_of_ne_nil hne
  exact ⟨c, _, rfl, (List.cons_subset.mp hwhole).1⟩

theorem PointedText.point_mem {s : List Char} (h : PointedText s) : '.' ∈ s := by
  obtain ⟨-, -, -, -⟩ := h
  exact List.mem_append_right _ List.mem_cons_self

theorem PointedText.subset {s : List Char} (h : PointedText s) : s ⊆ numberChars := by
  obtain ⟨-, hwhole, hfraction, hexponent⟩ := h
  have hexponent : ∀ {ex}, SignedExponent ex → ex ⊆ numberChars := by
    rintro _ (rfl | ⟨sign, ds, hsign, -, hds, rfl⟩)
    · exact List.nil_subset _
    · refine List.cons_subset.mpr ⟨by decide, List.cons_subset.mpr ⟨?_, ?_⟩⟩
      · obtain rfl | rfl := hsign <;> decide
      · exact List.Subset.trans hds latinDigits_subset
  refine List.append_subset.mpr ⟨List.Subset.trans hwhole latinDigits_subset,
    List.cons_subset.mpr ⟨by decide, List.append_subset.mpr ⟨?_, hexponent ‹_›⟩⟩⟩
  exact List.Subset.trans hfraction latinDigits_subset

theorem signedExponent_exponentText (style : NumberStyle) (e : ℤ) :
    SignedExponent (style.exponentText e) := by
  let ds := digitsOf e.natAbs
  refine .inr ⟨if e < 0 then '-' else '+',
    List.replicate (style.exponentWidth - ds.length) '0' ++ ds, ?_, ?_, ?_, rfl⟩
  · split
    · exact .inr rfl
    · exact .inl rfl
  · exact List.append_ne_nil_of_right_ne_nil _ (digits_digitsOf _).1
  · exact List.append_subset.mpr ⟨zeros_subset _, digitsOf_subset _⟩

theorem pointedText_positional {ds : List Char} (hne : ds ≠ []) (hds : ds ⊆ latinDigits) (k : ℤ) :
    PointedText (NumberStyle.positional ds k) := by
  have hpoint : ∀ {w f : List Char}, w ≠ [] → w ⊆ latinDigits → f ⊆ latinDigits →
      PointedText (w ++ '.' :: f) := fun {w f} hne hw hf ↦ by
    have h := PointedText.mk hne hw hf (.inl rfl)
    rwa [List.append_nil] at h
  unfold NumberStyle.positional
  split
  · exact hpoint (w := ['0']) (List.cons_ne_nil _ _) (by decide)
      (List.append_subset.mpr ⟨zeros_subset _, hds⟩)
  · split
    · exact hpoint (List.append_ne_nil_of_left_ne_nil hne _)
        (List.append_subset.mpr ⟨hds, zeros_subset _⟩) (by decide)
    · rename_i hk hlength
      refine hpoint ?_ (List.Subset.trans (List.take_subset _ _) hds)
        (List.Subset.trans (List.drop_subset _ _) hds)
      rw [ne_eq, List.take_eq_nil_iff, not_or]
      exact ⟨by omega, hne⟩

/-- A numeral that is written without a sign has a point, or it is one digit with an exponent. -/
theorem NumberStyle.text_cases (style : NumberStyle) {n : Numeral} (hsign : n.negative = false) :
    PointedText (style.text n) ∨
      ∃ d, digitsOf n.significand = [d] ∧ style.text n = d :: style.exponentText n.exponent := by
  obtain ⟨negative, m, e⟩ := n
  obtain rfl : negative = false := hsign
  have hds := digitsOf_subset m
  have hne := (digits_digitsOf m).1
  unfold NumberStyle.text
  dsimp only
  change PointedText (if m = 0 then _ else _) ∨ ∃ d, _ ∧ (if m = 0 then _ else _) = _
  split
  · have hzero : ['0'] ⊆ latinDigits := by decide
    exact .inl (.mk (List.cons_ne_nil _ _) hzero hzero (.inl rfl))
  · split
    · exact .inl (pointedText_positional hne hds _)
    · unfold NumberStyle.scientific
      obtain ⟨d, rest, hdigits⟩ := List.exists_cons_of_ne_nil hne
      rw [hdigits] at hds ⊢
      obtain ⟨hd, hrest⟩ := List.cons_subset.mp hds
      cases rest with
      | nil =>
        refine .inr ⟨d, rfl, ?_⟩
        have he : e + ([d].length : ℤ) - 1 = e := by
          rw [List.length_singleton]
          omega
        rw [he]
        rfl
      | cons d' rest =>
        exact .inl (.mk (List.cons_ne_nil d []) (List.cons_subset.mpr ⟨hd, List.nil_subset _⟩)
          hrest (signedExponent_exponentText style _))

/-! ## Numbers with a point -/

open Document

theorem forall_mem_exponentText (style : NumberStyle) (e : ℤ) :
    ∀ c ∈ style.exponentText e, c ≠ '.' := by
  obtain h | ⟨sign, ds, hsign, -, hds, h⟩ := signedExponent_exponentText style e
  · rw [h]
    exact fun _ hc ↦ nomatch hc
  · have hpoint : '.' ∉ latinDigits := by decide
    rw [h]
    refine List.forall_mem_cons.mpr ⟨by decide, List.forall_mem_cons.mpr ⟨?_, fun c hc ↦ ?_⟩⟩
    · obtain rfl | rfl := hsign <;> decide
    · rintro rfl
      exact hpoint (hds hc)

/-- The letter of an exponent gets a point in front of it. -/
theorem flatMap_exponentText (style : NumberStyle) (e : ℤ) :
    (style.exponentText e).flatMap (fun c ↦ if c = 'e' then ['.', '0', 'e'] else [c]) =
      '.' :: '0' :: style.exponentText e := by
  have hself : ∀ s : List Char, 'e' ∉ s →
      s.flatMap (fun c ↦ if c = 'e' then ['.', '0', 'e'] else [c]) = s := by
    intro s hs
    induction s with
    | nil => rfl
    | cons c s ih =>
      obtain ⟨hc, hs⟩ := not_or.mp (hs ∘ List.mem_cons.mpr)
      rw [List.flatMap_cons, if_neg (Ne.symm hc), ih hs]
      rfl
  obtain h | ⟨sign, ds, hsign, -, hds, h⟩ := signedExponent_exponentText style e
  · exact nomatch h
  · have hletter : 'e' ∉ latinDigits := by decide
    have hrest : 'e' ∉ sign :: ds := by
      refine List.not_mem_cons_of_ne_of_not_mem ?_ fun hmem ↦ hletter (hds hmem)
      obtain rfl | rfl := hsign <;> decide
    rw [h, List.flatMap_cons, hself _ hrest]
    rfl

/-- One digit with an exponent keeps its value if a point and a zero are put behind it. -/
theorem denotesNumber_single {x : Float} (hx : Binary64.isFinite x = true) (hpos : 0.0 < x)
    {d : Char} (hd : digitsOf (Numeral.shortest x).significand = [d]) :
    DenotesNumber
      (d :: '.' :: '0' :: numberStyle.exponentText (Numeral.shortest x).exponent) x := by
  obtain ⟨hsign, hunits⟩ := Binary64.units_of_pos hx hpos
  obtain ⟨hnegative, hcode⟩ := Numeral.readsBack_shortest hx
  have hdigit : isDigit d = true := (digits_digitsOf _).2 d (hd ▸ List.mem_singleton_self d)
  have hvalue : digitsValue ([d] ++ ['0']) = (Numeral.shortest x).significand * 10 := by
    rw [digitsValue_append, ← hd, digitsValue_digitsOf]
    rfl
  have hnumeral := NumeralText.mk .absent
    (.pointed (digits_singleton hdigit) (List.forall_mem_singleton.mpr (rfl : isDigit '0' = true)))
    (NumberStyle.exponent_exponentText numberStyle (Numeral.shortest x).exponent)
  have hzero : Binary64.code x ≠ 0 := fun h ↦ hunits (Binary64.unitsOfCode_eq_zero_iff.mpr h)
  have hfinite : Binary64.code x ≠ Binary64.infinityCode :=
    (of_decide_eq_true hx : Binary64.code x < Binary64.infinityCode).ne
  rw [hvalue] at hnumeral
  refine ⟨_, hnumeral, Numeral.ReadsBack.toFloat_eq ⟨hsign.symm, ?_⟩⟩
  rw [← hcode] at hzero hfinite ⊢
  rw [hsign] at hnegative
  cases hshortest : Numeral.shortest x with
  | mk negative m e =>
    rw [hshortest] at hzero hfinite hnegative
    obtain rfl : negative = false := hnegative
    exact Numeral.magnitudeCode_mul_ten false hzero hfinite

/-- A finite double above zero is written with a point, and what is written is its numeral. -/
theorem pointedText_writeNumber {x : Float} (hx : Binary64.isFinite x = true) (hpos : 0.0 < x) :
    PointedText (writeNumber x) ∧ DenotesNumber (writeNumber x) x := by
  have hnegative : (Numeral.shortest x).negative = false :=
    (Numeral.readsBack_shortest hx).1.trans (Binary64.units_of_pos hx hpos).1
  have hnumber := denotesNumber_numberText hx
  have htext : numberText x = numberStyle.text (Numeral.shortest x) := by
    unfold numberText
    rw [if_pos hx]
  unfold writeNumber
  dsimp only
  rw [htext] at hnumber ⊢
  obtain hpointed | ⟨d, hd, hscientific⟩ := numberStyle.text_cases hnegative
  · rw [if_pos (List.contains_iff_mem.mpr hpointed.point_mem)]
    exact ⟨hpointed, hnumber⟩
  · have hdigit : d ∈ latinDigits := digitsOf_subset _ (hd ▸ List.mem_singleton_self d)
    have hne : ∀ c ∉ latinDigits, d ≠ c := fun c hc h ↦ hc (h ▸ hdigit)
    have hpoint : '.' ∉ numberStyle.text (Numeral.shortest x) := by
      rw [hscientific]
      exact List.not_mem_cons_of_ne_of_not_mem (hne '.' (by decide)).symm fun hmem ↦
        forall_mem_exponentText _ _ _ hmem rfl
    rw [if_neg (hpoint ∘ List.contains_iff_mem.mp), hscientific, List.flatMap_cons,
      if_neg (hne 'e' (by decide)), flatMap_exponentText]
    have hzero : ['0'] ⊆ latinDigits := by decide
    exact ⟨.mk (List.cons_ne_nil d []) (List.cons_subset.mpr ⟨hdigit, List.nil_subset _⟩) hzero
      (signedExponent_exponentText _ _), denotesNumber_single hx hpos hd⟩

/-! ## Forms -/

/-- A word that does not start with a digit is no text that does. -/
theorem ofList_ne_of_digit {c : Char} (hc : c ∈ latinDigits) (r : List Char) {w : String}
    (h : startsDigit w.toList = false) : String.ofList (c :: r) ≠ w := by
  rintro rfl
  rw [String.toList_ofList] at h
  exact absurd h (by simp [startsDigit, isDigit_of_mem hc])

theorem notMem_of_digit {c : Char} (hc : c ∈ latinDigits) (r : List Char) {words : List String}
    (h : ∀ w ∈ words, startsDigit w.toList = false) : String.ofList (c :: r) ∉ words :=
  fun hmem ↦ ofList_ne_of_digit hc r (h _ hmem) rfl

theorem scanSign_of_digit {c : Char} (hc : c ∈ latinDigits) (r : List Char) :
    scanSign (c :: r) = (false, c :: r) := by
  refine scanSign_append .absent fun d hd ↦ ?_
  obtain rfl := Option.some.inj hd
  constructor
  · rintro rfl
    exact absurd hc (by decide)
  · rintro rfl
    exact absurd hc (by decide)

theorem isGrouped_of_mem {c : Char} (hc : c ∈ latinDigits) : isGrouped Char.isDigit c = true := by
  rw [isGrouped, isDigit_of_mem hc, Bool.true_or]

/-- A text that starts with a digit is none of the words that stand for something else. -/
theorem formOf_of_digit {c : Char} (hc : c ∈ latinDigits) (r : List Char) :
    formOf (c :: r) = if isNumberForm (c :: r) then .number
      else if isIntegerForm (c :: r) then .integer
      else if (timestamp? (c :: r)).isSome then .timestamp else .text := by
  have htruth : truthWords.lookup (String.ofList (c :: r)) = none := by
    refine List.lookup_eq_none_iff.mpr fun p hp ↦ ?_
    have hword : String.ofList (c :: r) ∉ truthWords.map (·.1) :=
      notMem_of_digit hc r (by decide +kernel)
    rw [bne_iff_ne]
    intro h
    exact hword (h ▸ List.mem_map_of_mem hp)
  have hnull : nullWords.contains (String.ofList (c :: r)) = false := by
    rw [Bool.eq_false_iff, Ne, List.contains_iff_mem]
    exact notMem_of_digit hc r (by decide +kernel)
  have hmerge : String.ofList (c :: r) ≠ "<<" := ofList_ne_of_digit hc r (by decide +kernel)
  have hdefault : String.ofList (c :: r) ≠ "=" := ofList_ne_of_digit hc r (by decide +kernel)
  unfold formOf
  simp only [htruth, hnull, if_neg hmerge, if_neg hdefault, Option.isSome_none, Bool.false_eq_true,
    if_false]

theorem isExponent_of_signed {s : List Char} (h : SignedExponent s) : isExponent s = true := by
  obtain rfl | ⟨sign, ds, hsign, hne, hds, rfl⟩ := h
  · rfl
  · have hdigits : ds.all Char.isDigit = true :=
      List.all_eq_true.mpr fun c hc ↦ isDigit_of_mem (hds hc)
    obtain ⟨d, ds, rfl⟩ := List.exists_cons_of_ne_nil hne
    obtain rfl | rfl := hsign <;> simpa [isExponent] using hdigits

/-- What stands in front of a character that is no digit. -/
theorem takeWhile_digits {a s : List Char} (ha : a ⊆ latinDigits)
    (hs : Stops (isGrouped Char.isDigit) s) :
    (a ++ s).takeWhile (isGrouped Char.isDigit) = a ∧
      (a ++ s).dropWhile (isGrouped Char.isDigit) = s := by
  have htake := takeWhile_append_of_stops (fun x hx ↦ isGrouped_of_mem (ha hx)) hs
  refine ⟨htake, ?_⟩
  have happend := List.takeWhile_append_dropWhile (p := isGrouped Char.isDigit) (l := a ++ s)
  rw [htake] at happend
  exact List.append_cancel_left happend

theorem PointedText.isPointedForm {s : List Char} (h : PointedText s) :
    isPointedForm s = true := by
  obtain ⟨hne, hwhole, hfraction, hexponent⟩ := h
  obtain ⟨c, w, rfl⟩ := List.exists_cons_of_ne_nil hne
  rename_i fraction exponent
  have hc := (List.cons_subset.mp hwhole).1
  have hpoint : Stops (isGrouped Char.isDigit) ('.' :: (fraction ++ exponent)) :=
    stops_cons_iff.mpr rfl
  have hletter : Stops (isGrouped Char.isDigit) exponent := by
    obtain rfl | ⟨_, _, -, -, -, rfl⟩ := hexponent
    · exact stops_nil
    · exact stops_cons_iff.mpr rfl
  unfold Document.isPointedForm
  rw [List.cons_append, scanSign_of_digit hc, ← List.cons_append]
  dsimp only
  rw [List.span_eq_takeWhile_dropWhile, (takeWhile_digits hwhole hpoint).1,
    (takeWhile_digits hwhole hpoint).2]
  change (startsDigit (c :: w) && isExponent ((fraction ++ exponent).dropWhile _)) = true
  rw [(takeWhile_digits hfraction hletter).2, isExponent_of_signed hexponent]
  simp [startsDigit, isDigit_of_mem hc]

/-- A number with a point has the form of a number. -/
theorem PointedText.formOf_eq {s : List Char} (h : PointedText s) : formOf s = .number := by
  obtain ⟨c, r, rfl, hc⟩ := h.exists_digit
  have hnumber : isNumberForm (c :: r) = true := by
    unfold isNumberForm
    rw [h.isPointedForm]
    rfl
  rw [formOf_of_digit hc, if_pos hnumber]

theorem colonParts_of_notMem {s : List Char} (h : ':' ∉ s) : colonParts s = [s] := by
  induction s with
  | nil => rfl
  | cons c s ih =>
    obtain ⟨hc, hs⟩ := not_or.mp (h ∘ List.mem_cons.mpr)
    rw [colonParts, ih hs]
    exact if_neg (Ne.symm hc)

theorem notMem_of_subset {c : Char} {s t : List Char} (hs : s ⊆ t) (hc : c ∉ t) : c ∉ s :=
  fun hmem ↦ hc (hs hmem)

/-- Digits are no number with a point. -/
theorem isNumberForm_digits {c : Char} {r : List Char} (h : c :: r ⊆ latinDigits) :
    isNumberForm (c :: r) = false := by
  have hc := (List.cons_subset.mp h).1
  have htake := takeWhile_digits h (stops_nil : Stops (isGrouped Char.isDigit) [])
  rw [List.append_nil] at htake
  have hpointed : Document.isPointedForm (c :: r) = false := by
    unfold Document.isPointedForm
    rw [scanSign_of_digit hc]
    dsimp only
    rw [List.span_eq_takeWhile_dropWhile, htake.1, htake.2]
  have hsixty : isSixtyForm (c :: r) = false := by
    unfold isSixtyForm
    rw [scanSign_of_digit hc, colonParts_of_notMem (notMem_of_subset h (by decide))]
  have hinfinity : infinityWords.contains (String.ofList (scanSign (c :: r)).2) = false := by
    rw [scanSign_of_digit hc, Bool.eq_false_iff, Ne, List.contains_iff_mem]
    exact notMem_of_digit hc r (by decide +kernel)
  have hundefined : undefinedWords.contains (String.ofList (c :: r)) = false := by
    rw [Bool.eq_false_iff, Ne, List.contains_iff_mem]
    exact notMem_of_digit hc r (by decide +kernel)
  unfold isNumberForm
  rw [hpointed, hsixty, hinfinity, hundefined]
  rfl

/-- A digit of the Latin script that is not zero. -/
theorem isDecimal_digits {c : Char} {r : List Char} (h : c :: r ⊆ latinDigits) (hc : c ≠ '0') :
    isDecimal (c :: r) = true := by
  obtain ⟨hmem, hr⟩ := List.cons_subset.mp h
  have hrest : r.all (isGrouped Char.isDigit) = true :=
    List.all_eq_true.mpr fun d hd ↦ isGrouped_of_mem (hr hd)
  have key : latinDigits.all (fun d ↦ d == '0' || ('1' ≤ d && d ≤ '9')) = true := by decide
  have hfirst := List.all_eq_true.mp key c hmem
  rw [beq_false_of_ne hc, Bool.false_or] at hfirst
  unfold isDecimal
  dsimp only
  rw [hfirst, hrest]
  rfl

/-- The digits of a natural number are a zero alone, or they do not start with one. -/
theorem digitsOf_cases (n : ℕ) :
    n = 0 ∧ digitsOf n = ['0'] ∨
      ∃ c r, digitsOf n = c :: r ∧ c :: r ⊆ latinDigits ∧ c ≠ '0' := by
  by_cases hn : n = 0
  · subst hn
    exact .inl ⟨rfl, by rw [digitsOf, if_pos (by decide)]; rfl⟩
  · obtain ⟨c, r, hdigits⟩ := List.exists_cons_of_ne_nil (digits_digitsOf n).1
    have hhead := head?_digitsOf hn
    have hsubset := digitsOf_subset n
    rw [hdigits] at hhead hsubset
    exact .inr ⟨c, r, hdigits, hsubset, fun h ↦ hhead (congrArg some h)⟩

/-- The digits of a natural number have the form of an integer. -/
theorem formOf_digitsOf (n : ℕ) : formOf (digitsOf n) = .integer := by
  obtain ⟨-, h⟩ | ⟨c, r, h, hsubset, hc⟩ := digitsOf_cases n
  · rw [h]
    decide +kernel
  · have hmem := (List.cons_subset.mp hsubset).1
    have hinteger : isIntegerForm (c :: r) = true := by
      unfold isIntegerForm
      rw [scanSign_of_digit hmem]
      dsimp only
      split
      · rfl
      · exact absurd (List.cons.inj ‹_›).1 hc
      · exact absurd (List.cons.inj ‹_›).1 hc
      · exact absurd (List.cons.inj ‹_›).1 hc
      · rw [colonParts_of_notMem (notMem_of_subset hsubset (by decide))]
        dsimp only
        rw [isDecimal_digits hsubset hc]
        rfl
    rw [h, formOf_of_digit hmem, isNumberForm_digits hsubset, if_neg Bool.false_ne_true,
      if_pos hinteger]

/-! ## Values -/

theorem trimMargins_of_forall {s : List Char} (h : ∀ c ∈ s, isMargin c = false) :
    trimMargins s = s := by
  have hdrop : ∀ t : List Char, (∀ c ∈ t, isMargin c = false) → t.dropWhile isMargin = t := by
    intro t ht
    cases t with
    | nil => rfl
    | cons c t => rw [List.dropWhile_cons_of_neg (by simp [ht c List.mem_cons_self])]
  unfold trimMargins
  rw [hdrop s h, hdrop _ fun c hc ↦ h c (List.mem_reverse.mp hc), List.reverse_reverse]

theorem withoutGrouping_of_notMem {s : List Char} (h : '_' ∉ s) : withoutGrouping s = some s := by
  induction s using withoutGrouping.induct with
  | case1 => rfl
  | case2 a b r ih => exact absurd (List.mem_cons_of_mem _ List.mem_cons_self) h
  | case3 a b r => exact absurd (List.mem_cons_of_mem _ List.mem_cons_self) h
  | case4 => exact absurd List.mem_cons_self h
  | case5 a r hgroup hstart ih =>
    rw [withoutGrouping, ih fun hmem ↦ h (List.mem_cons_of_mem _ hmem)]
    · rfl
    · exact hgroup
    · exact hstart

/-- The characters of numbers are neither blanks nor signs of grouping, and no capital letters. -/
theorem of_mem_numberChars {c : Char} (h : c ∈ numberChars) :
    isMargin c = false ∧ (c != '_') = true ∧ c.toLower = c ∧ isSimple c = true := by
  have key : numberChars.all (fun c ↦
      !isMargin c && c != '_' && c.toLower == c && isSimple c) = true := by
    decide
  have h := List.all_eq_true.mp key c h
  simp only [Bool.and_eq_true, Bool.not_eq_true', beq_iff_eq] at h
  exact ⟨h.1.1.1, h.1.1.2, h.1.2, h.2⟩

theorem filter_grouping {s : List Char} (h : s ⊆ numberChars) : s.filter (· != '_') = s :=
  List.filter_eq_self.mpr fun _ hc ↦ (of_mem_numberChars (h hc)).2.1

theorem map_toLower {s : List Char} (h : s ⊆ numberChars) : s.map Char.toLower = s := by
  refine (List.map_congr_left fun c hc ↦ ?_).trans (List.map_id s)
  exact (of_mem_numberChars (h hc)).2.2.1

theorem trimMargins_of_subset {s : List Char} (h : s ⊆ numberChars) : trimMargins s = s :=
  trimMargins_of_forall fun _ hc ↦ (of_mem_numberChars (h hc)).1

theorem wholeNumber?_of_denotesNumber {s : List Char} {x : Float} (h : DenotesNumber s x) :
    wholeNumber? s = some x := by
  obtain ⟨n, hn, rfl⟩ := h
  have hscan := scanNumeral_append hn (s := []) fun _ hc ↦ nomatch hc
  rw [List.append_nil] at hscan
  unfold wholeNumber?
  rw [hscan]

/-- The value of a number with a point. -/
theorem numberOf_pointed {s : List Char} {x : Float} (h : PointedText s) (hx : DenotesNumber s x) :
    numberOf s = .ok x := by
  obtain ⟨c, r, rfl, hc⟩ := h.exists_digit
  have hsubset := h.subset
  have hread : readFloat? (c :: r) = some x := by
    have hword : readWord? (c :: r) = none := by
      unfold readWord?
      rw [scanSign_of_digit hc]
      dsimp only
      rw [map_toLower hsubset]
      rw [if_neg (not_or.mpr ⟨ofList_ne_of_digit hc r (by decide +kernel),
        ofList_ne_of_digit hc r (by decide +kernel)⟩),
        if_neg (ofList_ne_of_digit hc r (by decide +kernel))]
    unfold readFloat?
    dsimp only
    rw [trimMargins_of_subset hsubset, hword, Option.none_or,
      withoutGrouping_of_notMem (notMem_of_subset hsubset (by decide))]
    exact wholeNumber?_of_denotesNumber hx
  have hpoint : c ≠ '.' := by
    rintro rfl
    exact absurd hc (by decide)
  have hne : ∀ t, c :: r ≠ '.' :: t := fun t h ↦ hpoint (List.cons.inj h).1
  unfold numberOf
  dsimp only
  rw [filter_grouping hsubset, map_toLower hsubset, scanSign_of_digit hc]
  dsimp only
  rw [if_neg (by simp), if_neg (hne _), if_neg (hne _),
    colonParts_of_notMem (notMem_of_subset hsubset (by decide))]
  dsimp only
  unfold numberPart
  rw [hread]
  exact congrArg Except.ok (Binary64.one_mul x)

theorem digitsOf_subset_numberChars (n : ℕ) : digitsOf n ⊆ numberChars :=
  List.Subset.trans (digitsOf_subset n) latinDigits_subset

theorem scanSign_digitsOf (n : ℕ) : scanSign (digitsOf n) = (false, digitsOf n) := by
  obtain ⟨c, r, h⟩ := List.exists_cons_of_ne_nil (digits_digitsOf n).1
  rw [h]
  exact scanSign_of_digit (digitsOf_subset n (h ▸ List.mem_cons_self)) r

theorem readInteger?_digitsOf (n : ℕ) : readInteger? (digitsOf n) = some (n : ℤ) := by
  have hsubset := digitsOf_subset_numberChars n
  have hempty : (digitsOf n).isEmpty = false := List.isEmpty_eq_false_iff.mpr (digits_digitsOf n).1
  have hall : (digitsOf n).all Text.isDigit = true := List.all_eq_true.mpr (digits_digitsOf n).2
  unfold readInteger?
  rw [trimMargins_of_subset hsubset, scanSign_digitsOf]
  dsimp only
  rw [withoutGrouping_of_notMem (notMem_of_subset hsubset (by decide))]
  dsimp only
  rw [hempty, hall, digitsValue_digitsOf]
  rfl

theorem magnitudeOf_digitsOf {n : ℕ} (h : (digitsOf n).length ≤ Datum.mostDigits) :
    magnitudeOf (digitsOf n) = .ok (n : ℤ) := by
  have hpart : decimalPart (digitsOf n) = .ok (n : ℤ) := by
    unfold decimalPart
    rw [readInteger?_digitsOf]
    exact if_neg (Nat.not_lt.mpr h)
  have hparts := colonParts_of_notMem
    (notMem_of_subset (digitsOf_subset_numberChars n) (by decide : ':' ∉ numberChars))
  obtain ⟨rfl, hzero⟩ | ⟨c, r, hdigits, -, hc⟩ := digitsOf_cases n
  · rw [hzero]
    rfl
  · -- digits without a zero in front are in base ten
    have hten : magnitudeOf (digitsOf n) = ((colonParts (digitsOf n)).mapM decimalPart).map
        fun ps ↦ ps.foldl (fun acc p ↦ 60 * acc + p) 0 := by
      rw [hdigits]
      unfold magnitudeOf
      split
      · exact nomatch ‹_ :: _ = []›
      · exact absurd (List.cons.inj ‹_›).1 hc
      · exact absurd (List.cons.inj ‹_›).1 hc
      · exact absurd (List.cons.inj ‹_›).1 hc
      · exact absurd (List.cons.inj ‹_›).1 hc
      · rfl
    rw [hten, hparts, List.mapM_cons, hpart]
    change Except.ok (60 * 0 + (n : ℤ)) = _
    rw [Int.mul_zero, Int.zero_add]

/-- The value of digits that are not too many. -/
theorem integerOf_digitsOf {n : ℕ} (h : n < Nat.pow 10 Datum.mostDigits) :
    integerOf (digitsOf n) = .ok n := by
  unfold integerOf
  dsimp only
  rw [filter_grouping (digitsOf_subset_numberChars n), scanSign_digitsOf]
  dsimp only
  rw [magnitudeOf_digitsOf (length_digitsOf_le (by decide) h)]
  rfl

end WaveNotebook
