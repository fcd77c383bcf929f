import WaveNotebook.Proofs.Scan.Paren

/-!
# Texts that differ in quoted spans only

What is written strictly inside a closed quoted span never steers a scanner. The scanners run over
two texts that differ in such places only with the same open quote at each place, so they split
them into pieces of the same lengths, find the same parentheses and cut off comments at the same
place. Trimming, too, leaves texts of the same length: the quotes around a span are visible, so
that no blank inside it can stand at an end of the text.
-/

namespace WaveNotebook.Scan

open Text

/-- The texts have the same length. Where they differ, a quote is open that the first text closes
further behind, and neither text has that quote there. -/
structure AgreeOutsideSpans (quote : Option Char) (s t : List Char) : Prop where
  length_eq : t.length = s.length
  inside : ∀ i < s.length, t[i]? ≠ s[i]? →
    ∃ q ∈ openQuote quote (s.take i), q ∈ s.drop (i + 1) ∧ s[i]? ≠ some q ∧ t[i]? ≠ some q

/-- The same, character by character. -/
inductive Alike : Option Char → List Char → List Char → Prop
  | nil {quote} : Alike quote [] []
  | same {quote c s t} (h : Alike (quoteAfter quote c) s t) : Alike quote (c :: s) (c :: t)
  | inside {q c d s t} (hquote : isQuote q = true) (hmem : q ∈ s) (hc : c ≠ q) (hd : d ≠ q)
    (h : Alike (some q) s t) : Alike (some q) (c :: s) (d :: t)

theorem AgreeOutsideSpans.alike {quote : Option Char} {s t : List Char}
    (hquote : ∀ q ∈ quote, isQuote q = true) (h : AgreeOutsideSpans quote s t) :
    Alike quote s t := by
  induction s generalizing quote t with
  | nil =>
    rw [List.length_eq_zero_iff.mp h.length_eq]
    exact .nil
  | cons c s ih =>
    cases t with
    | nil => exact absurd h.length_eq (Nat.succ_ne_zero _).symm
    | cons d t =>
      have htail : AgreeOutsideSpans (quoteAfter quote c) s t :=
        ⟨Nat.succ.inj h.length_eq, fun i hi hne ↦ h.inside (i + 1) (Nat.succ_lt_succ hi) hne⟩
      have hrest : Alike (quoteAfter quote c) s t := ih (isQuote_of_openQuote hquote [c]) htail
      by_cases hcd : d = c
      · rw [hcd]
        exact .same hrest
      · obtain ⟨q, hq, hmem, hc, hd⟩ :=
          h.inside 0 (Nat.succ_pos _) fun heq ↦ hcd (Option.some.inj heq)
        obtain rfl : quote = some q := hq
        have hc' : c ≠ q := fun heq ↦ hc (congrArg some heq)
        rw [quoteAfter_of_ne hc'] at hrest
        exact .inside (hquote q rfl) hmem hc' (fun heq ↦ hd (congrArg some heq)) hrest

/-- The lengths of the pieces of a text, or its fault. -/
def lengths (x : Except TextFault (List (List Char))) : Except TextFault (List Nat) :=
  (·.map List.length) <$> x

theorem lengths_cut (x : Except TextFault (List (List Char))) :
    lengths (([] :: ·) <$> x) = (0 :: ·) <$> lengths x := by
  cases x <;> rfl

/-- The lengths of the pieces with one more character in front. -/
def lengthen : List Nat → List Nat
  | [] => [1]
  | n :: ns => (n + 1) :: ns

theorem lengths_extend (c : Char) (x : Except TextFault (List (List Char))) :
    lengths (extend c <$> x) = lengthen <$> lengths x := by
  cases x with
  | error fault => rfl
  | ok pieces => cases pieces <;> rfl

namespace Alike

variable {quote : Option Char} {s t : List Char}

theorem length_eq (h : Alike quote s t) : t.length = s.length := by
  induction h with
  | nil => rfl
  | same _ ih => exact congrArg Nat.succ ih
  | inside _ _ _ _ _ ih => exact congrArg Nat.succ ih

/-- The quotes that are open are the same from any place on. -/
theorem drop (h : Alike quote s t) (i : Nat) :
    Alike (openQuote quote (s.take i)) (s.drop i) (t.drop i) := by
  induction h generalizing i with
  | nil =>
    rw [List.take_nil, List.drop_nil]
    exact .nil
  | same h ih =>
    cases i with
    | zero => exact .same h
    | succ i => exact ih i
  | @inside q c d s t hquote hmem hc hd h ih =>
    cases i with
    | zero => exact .inside hquote hmem hc hd h
    | succ i =>
      rw [List.take_succ_cons, openQuote_cons, quoteAfter_of_ne hc]
      exact ih i

/-! ## Splitting -/

theorem lengths_splitFrom (h : Alike quote s t) (sep : Char) (due : List Char) :
    lengths (splitFrom sep quote due t) = lengths (splitFrom sep quote due s) := by
  induction h generalizing due with
  | nil => rfl
  | @same quote c s t h ih =>
    obtain hfault | ⟨rfl, rfl, -, hplain, hcut⟩ | ⟨quote', due', hadvances, hstep⟩ :=
      splitFrom_cons sep quote due c
    · rw [hfault, hfault]
    · rw [quoteAfter_of_not_isQuote hplain.quote] at ih
      rw [hcut, hcut, lengths_cut, lengths_cut, ih]
    · rw [hstep, hstep, lengths_extend, lengths_extend, hadvances.quote_eq, ih]
  | @inside q c d s t _ _ hc hd h ih =>
    rw [splitFrom, splitFrom, quoteAfter_of_ne hc, quoteAfter_of_ne hd, lengths_extend,
      lengths_extend, ih]

/-! ## Parentheses -/

theorem closingParen?_eq (h : Alike quote s t) (depth : Int) (i : Nat) :
    closingParen? quote depth i t = closingParen? quote depth i s := by
  induction h generalizing depth i with
  | nil => rfl
  | @same quote c s t _ ih =>
    cases quote with
    | some q => exact ih depth (i + 1)
    | none =>
      rw [quoteAfter] at ih
      unfold closingParen?
      split
      · rename_i hquote
        rw [if_pos hquote] at ih
        exact ih depth (i + 1)
      · rename_i hquote
        rw [if_neg hquote] at ih
        rw [ih, ih, ih]
  | @inside q c d s t _ _ hc hd _ ih =>
    rw [closingParen?, closingParen?, quoteAfter_of_ne hc, quoteAfter_of_ne hd, ih]

/-! ## Comments -/

/-- A text without quotes is in front of both or of none. -/
theorem isPrefixOf_eq {marker : List Char} (hmarker : ∀ c ∈ marker, isQuote c = false)
    (h : Alike none s t) : marker.isPrefixOf t = marker.isPrefixOf s := by
  induction marker generalizing s t with
  | nil => rfl
  | cons m marker ih =>
    cases h with
    | nil => rfl
    | @same _ c s t h =>
      rw [List.isPrefixOf_cons_cons, List.isPrefixOf_cons_cons]
      by_cases hm : m = c
      · subst hm
        rw [quoteAfter_of_not_isQuote (hmarker m List.mem_cons_self)] at h
        rw [ih (fun d hd ↦ hmarker d (List.mem_cons_of_mem _ hd)) h]
      · have hne : (m == c) = false := by simpa using hm
        rw [hne, Bool.false_and, Bool.false_and]

/-- A quote that closes a span is no part of a comment. -/
theorem mem_beforeComment {marker : List Char} {q : Char} (h : q ∈ s) :
    q ∈ beforeComment marker (some q) s := by
  induction s with
  | nil => cases h
  | cons c s ih =>
    rw [beforeComment]
    by_cases hc : c = q
    · rw [hc]
      exact List.mem_cons_self
    · rw [quoteAfter_of_ne hc]
      exact List.mem_cons_of_mem _ (ih ((List.mem_cons.mp h).resolve_left (Ne.symm hc)))

theorem beforeComment {marker : List Char} (hmarker : ∀ c ∈ marker, isQuote c = false)
    (h : Alike quote s t) :
    Alike quote (beforeComment marker quote s) (beforeComment marker quote t) := by
  induction h with
  | nil => exact .nil
  | @same quote c s t h ih =>
    cases quote with
    | some q => exact .same ih
    | none =>
      have hmarked := isPrefixOf_eq hmarker (.same h : Alike none (c :: s) (c :: t))
      rw [quoteAfter] at ih
      unfold Scan.beforeComment
      rw [hmarked]
      split
      · rename_i hquote
        rw [if_pos hquote] at ih
        refine .same ?_
        rwa [quoteAfter, if_pos hquote]
      · rename_i hquote
        rw [if_neg hquote] at ih
        split
        · exact .nil
        · refine .same ?_
          rwa [quoteAfter, if_neg hquote]
  | @inside q c d s t hquote hmem hc hd h ih =>
    rw [Scan.beforeComment, Scan.beforeComment, quoteAfter_of_ne hc, quoteAfter_of_ne hd]
    exact .inside hquote (mem_beforeComment hmem) hc hd ih

/-! ## Trimming -/

/-- A quote that is closed in one text is closed in the other. -/
theorem mem_of_mem {q : Char} (h : Alike (some q) s t) (hmem : q ∈ s) : q ∈ t := by
  induction s generalizing t with
  | nil => cases hmem
  | cons c s ih =>
    cases h with
    | same h =>
      by_cases hc : c = q
      · rw [hc]
        exact List.mem_cons_self
      · rw [quoteAfter_of_ne hc] at h
        exact List.mem_cons_of_mem _ (ih h ((List.mem_cons.mp hmem).resolve_left (Ne.symm hc)))
    | inside _ hmem _ _ h => exact List.mem_cons_of_mem _ (ih h hmem)

theorem not_blanks_of_mem {q : Char} (hquote : isQuote q = true) (hmem : q ∈ s) : ¬Blanks s := by
  intro hblanks
  have hblank := hblanks q hmem
  rw [isBlank_of_isQuote hquote] at hblank
  cases hblank

theorem blanks_iff (h : Alike quote s t) : Blanks t ↔ Blanks s := by
  induction h with
  | nil => exact Iff.rfl
  | same _ ih => rw [blanks_cons_iff, blanks_cons_iff, ih]
  | inside hquote hmem _ _ h _ =>
    have hs := not_blanks_of_mem hquote hmem
    have ht := not_blanks_of_mem hquote (h.mem_of_mem hmem)
    exact ⟨fun hblanks ↦ (ht (blanks_cons_iff.mp hblanks).2).elim,
      fun hblanks ↦ (hs (blanks_cons_iff.mp hblanks).2).elim⟩

theorem trimLeft (h : Alike none s t) : Alike none (trimLeft s) (trimLeft t) := by
  unfold Text.trimLeft
  induction s generalizing t with
  | nil =>
    cases h
    exact .nil
  | cons c s ih =>
    cases h with
    | same h =>
      by_cases hc : isBlank c = true
      · rw [quoteAfter_of_not_isQuote (isQuote_of_isBlank hc)] at h
        rw [List.dropWhile_cons_of_pos hc, List.dropWhile_cons_of_pos hc]
        exact ih h
      · rw [List.dropWhile_cons_of_neg hc, List.dropWhile_cons_of_neg hc]
        exact .same h

theorem length_trimRight (h : Alike quote s t) : (trimRight t).length = (trimRight s).length := by
  induction h with
  | nil => rfl
  | @same quote c s t h ih =>
    by_cases hs : Blanks s
    · rw [trimRight_cons_of_blanks hs, trimRight_cons_of_blanks (h.blanks_iff.mpr hs)]
    · rw [trimRight_cons_of_not_blanks hs,
        trimRight_cons_of_not_blanks fun ht ↦ hs (h.blanks_iff.mp ht)]
      exact congrArg Nat.succ ih
  | inside hquote hmem _ _ h ih =>
    have hs := not_blanks_of_mem hquote hmem
    have ht := not_blanks_of_mem hquote (h.mem_of_mem hmem)
    rw [trimRight_cons_of_not_blanks hs, trimRight_cons_of_not_blanks ht]
    exact congrArg Nat.succ ih

theorem length_trim (h : Alike none s t) : (trim t).length = (trim s).length :=
  h.trimLeft.length_trimRight

end Alike

/-! ## The scanners -/

/-- Texts that differ strictly inside closed quoted spans only are split into pieces of the same
lengths or fail alike, have the same matching parentheses, and lose their comments at the same
place, which leaves trimmed texts of the same length. -/
theorem AgreeOutsideSpans.scanned_alike {s t : List Char} (h : AgreeOutsideSpans none s t) :
    (∀ sep, lengths (splitTopLevel sep t) = lengths (splitTopLevel sep s)) ∧
      (∀ i, openQuote none (s.take i) = none → matchingParen t i = matchingParen s i) ∧
      ∀ marker, (∀ c ∈ marker, isQuote c = false) →
        ∃ i ≤ s.length, beforeComment marker none s = s.take i ∧
          beforeComment marker none t = t.take i ∧
          (stripComment marker t).length = (stripComment marker s).length := by
  have halike : Alike none s t := h.alike fun _ hq ↦ nomatch hq
  refine ⟨fun sep ↦ halike.lengths_splitFrom sep [], fun i hquote ↦ ?_, fun marker hmarker ↦ ?_⟩
  · have hrest := halike.drop i
    rw [hquote] at hrest
    unfold matchingParen
    rw [hrest.closingParen?_eq]
  · have hcut := halike.beforeComment hmarker
    have hs := beforeComment_prefix marker none s
    have ht := beforeComment_prefix marker none t
    refine ⟨_, hs.length_le, List.prefix_iff_eq_take.mp hs, ?_, hcut.length_trim⟩
    rw [← hcut.length_eq]
    exact List.prefix_iff_eq_take.mp ht

/-- Spans side by side and with the other quote in them, which hide brackets, separators, blanks
and a marker. -/
theorem scanned_alike_quoted :
    AgreeOutsideSpans none "f('ab',\"it's\")//c".toList "f('),',\"// '\")//c".toList ∧
      lengths (splitTopLevel ',' "f('),',\"// '\")//c".toList) =
        lengths (splitTopLevel ',' "f('ab',\"it's\")//c".toList) ∧
      matchingParen "f('),',\"// '\")//c".toList 1 =
        matchingParen "f('ab',\"it's\")//c".toList 1 ∧
      ∃ i ≤ "f('ab',\"it's\")//c".toList.length,
        beforeComment ['/', '/'] none "f('ab',\"it's\")//c".toList =
          "f('ab',\"it's\")//c".toList.take i ∧
        beforeComment ['/', '/'] none "f('),',\"// '\")//c".toList =
          "f('),',\"// '\")//c".toList.take i ∧
        (stripComment ['/', '/'] "f('),',\"// '\")//c".toList).length =
          (stripComment ['/', '/'] "f('ab',\"it's\")//c".toList).length := by
  have hagree : AgreeOutsideSpans none "f('ab',\"it's\")//c".toList
      "f('),',\"// '\")//c".toList := by
    refine ⟨by decide, fun i hi hne ↦ ?_⟩
    have hplace : i ∈ [3, 4] ∨ i ∈ [8, 9, 10, 11] := by
      revert i
      decide
    clear hi hne
    obtain hi | hi := hplace
    · refine ⟨'\'', ?_⟩
      revert i
      decide
    · refine ⟨'"', ?_⟩
      revert i
      decide
  obtain ⟨hsplit, hparen, hcomment⟩ := hagree.scanned_alike
  exact ⟨hagree, hsplit ',', hparen 1 rfl, hcomment ['/', '/'] (by simp [isQuote])⟩

end WaveNotebook.Scan
