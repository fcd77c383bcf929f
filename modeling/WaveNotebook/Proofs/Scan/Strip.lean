import Mathlib.Data.Nat.Find
import Mathlib.Order.Bounds.Basic
import WaveNotebook.Proofs.Scan.Comment

/-!
# What is left of a line without its comment

A line is cut at the first marker that stands outside quoted spans, where a span that is not closed
reaches to the end of the line. A place where the scan cuts a part of a line is one where it cuts
the whole line, so there is none in what comes before the first such place. Trimming moves places,
but blanks neither open nor close a span. So nothing is cut off a second time.
-/

namespace WaveNotebook.Scan

open Text

/-! ## Quoted spans -/

/-- Texts of characters that are no quotes, and of closed quoted spans. -/
inductive SpansClosed : List Char → Prop
  | nil : SpansClosed []
  | plain {c s} (hc : isQuote c = false) (hs : SpansClosed s) : SpansClosed (c :: s)
  | span {quote inner s} (hquote : isQuote quote = true) (hinner : quote ∉ inner)
    (hs : SpansClosed s) : SpansClosed (quote :: (inner ++ quote :: s))

theorem openQuote_of_notMem {q : Char} {s : List Char} (h : q ∉ s) :
    openQuote (some q) s = some q := by
  induction s with
  | nil => rfl
  | cons c s ih =>
    obtain ⟨hc, hs⟩ := not_or.mp (h ∘ List.mem_cons.mpr)
    rw [openQuote_cons, quoteAfter_of_ne (Ne.symm hc), ih hs]

/-- A quote that is closed behind a text is closed there for the first time. -/
theorem exists_eq_append_of_openQuote {q : Char} {s : List Char}
    (h : openQuote (some q) s = none) :
    ∃ inner t, s = inner ++ q :: t ∧ q ∉ inner ∧ openQuote none t = none := by
  induction s with
  | nil => cases h
  | cons c s ih =>
    rw [openQuote_cons] at h
    by_cases hc : c = q
    · subst hc
      rw [quoteAfter_self] at h
      exact ⟨[], s, rfl, List.not_mem_nil, h⟩
    · rw [quoteAfter_of_ne hc] at h
      obtain ⟨inner, t, rfl, hinner, ht⟩ := ih h
      refine ⟨c :: inner, t, rfl, fun hmem ↦ ?_, ht⟩
      exact (List.mem_cons.mp hmem).elim (fun heq ↦ hc heq.symm) hinner

/-- The spans of a text are closed if no quote is open behind it. -/
theorem spansClosed_iff {s : List Char} : SpansClosed s ↔ openQuote none s = none := by
  constructor
  · intro h
    induction h with
    | nil => rfl
    | plain hc _ ih => rwa [openQuote_cons, quoteAfter_of_not_isQuote hc]
    | span hquote hinner _ ih =>
      rwa [openQuote_cons, quoteAfter_of_isQuote hquote, openQuote_append,
        openQuote_of_notMem hinner, openQuote_cons, quoteAfter_self]
  · intro h
    induction hlength : s.length using Nat.strong_induction_on generalizing s with
    | _ n ih =>
      subst hlength
      cases s with
      | nil => exact .nil
      | cons c s =>
        rw [openQuote_cons] at h
        cases hc : isQuote c with
        | false =>
          rw [quoteAfter_of_not_isQuote hc] at h
          exact .plain hc (ih s.length (Nat.lt_succ_self _) h rfl)
        | true =>
          rw [quoteAfter_of_isQuote hc] at h
          obtain ⟨inner, t, rfl, hinner, ht⟩ := exists_eq_append_of_openQuote h
          refine .span hc hinner (ih t.length ?_ ht rfl)
          simp only [List.length_cons, List.length_append]
          omega

instance (s : List Char) : Decidable (SpansClosed s) :=
  decidable_of_iff _ spansClosed_iff.symm

/-- The marker occurs at a place of the line that is outside of its quoted spans. -/
def MarkerAt (marker line : List Char) (i : ℕ) : Prop :=
  SpansClosed (line.take i) ∧ marker <+: line.drop i

instance (marker line : List Char) (i : ℕ) : Decidable (MarkerAt marker line i) :=
  inferInstanceAs (Decidable (_ ∧ _))

/-! ## Where a line is cut -/

/-- The scan cuts a text at a place: no quote is open there, the next character opens none, and
the marker follows. -/
structure CutAt (marker : List Char) (quote : Option Char) (s : List Char) (i : ℕ) : Prop where
  closed : openQuote quote (s.take i) = none
  plain : ∃ c ∈ s[i]?, isQuote c = false
  marked : marker <+: s.drop i

section

variable {marker line s : List Char} {quote : Option Char} {i : ℕ}

theorem CutAt.lt_length (h : CutAt marker quote line i) : i < line.length := by
  obtain ⟨c, hc, -⟩ := h.plain
  exact (List.getElem?_eq_some_iff.mp hc).1

/-- A place where a part of a line is cut is one where the line is cut. -/
theorem CutAt.pad {a : List Char} (ha : openQuote quote a = none) (h : CutAt marker none s i)
    (b : List Char) : CutAt marker quote (a ++ s ++ b) (a.length + i) := by
  have hi := h.lt_length
  refine ⟨?_, ?_, ?_⟩
  · rw [List.append_assoc, List.take_length_add_append, openQuote_append, ha,
      List.take_append_of_le_length hi.le]
    exact h.closed
  · rw [List.append_assoc, List.getElem?_append_right (Nat.le_add_right _ _),
      Nat.add_sub_cancel_left, List.getElem?_append_left hi]
    exact h.plain
  · rw [List.append_assoc, List.drop_length_add_append, List.drop_append_of_le_length hi.le]
    exact h.marked.trans (List.prefix_append _ _)

theorem cutAt_cons_succ_iff {c : Char} :
    CutAt marker quote (c :: line) (i + 1) ↔ CutAt marker (quoteAfter quote c) line i :=
  ⟨fun h ↦ ⟨h.closed, h.plain, h.marked⟩, fun h ↦ ⟨h.closed, h.plain, h.marked⟩⟩

theorem cutAt_cons_zero_iff {c : Char} :
    CutAt marker quote (c :: line) 0 ↔
      quote = none ∧ isQuote c = false ∧ marker <+: c :: line := by
  constructor
  · intro h
    obtain ⟨d, hd, hplain⟩ := h.plain
    obtain rfl := Option.some.inj hd
    exact ⟨h.closed, hplain, h.marked⟩
  · rintro ⟨hquote, hc, hmarker⟩
    exact ⟨hquote, ⟨c, rfl, hc⟩, hmarker⟩

theorem beforeComment_cons_of_cutAt {c : Char} (h : CutAt marker quote (c :: line) 0) :
    beforeComment marker quote (c :: line) = [] := by
  obtain ⟨rfl, hc, hmarker⟩ := cutAt_cons_zero_iff.mp h
  rw [beforeComment, if_neg (by simp [hc]), if_pos (List.isPrefixOf_iff_prefix.mpr hmarker)]

theorem beforeComment_cons_of_not_cutAt {c : Char} (h : ¬CutAt marker quote (c :: line) 0) :
    beforeComment marker quote (c :: line) =
      c :: beforeComment marker (quoteAfter quote c) line := by
  cases quote with
  | some q => rfl
  | none =>
    rw [beforeComment]
    cases hc : isQuote c with
    | true => rw [if_pos rfl, quoteAfter_of_isQuote hc]
    | false =>
      have hmarker : ¬marker.isPrefixOf (c :: line) = true := fun hmarker ↦
        h (cutAt_cons_zero_iff.mpr ⟨rfl, hc, List.isPrefixOf_iff_prefix.mp hmarker⟩)
      rw [if_neg Bool.false_ne_true, if_neg hmarker, quoteAfter_of_not_isQuote hc]

/-- The scan stops at the first place where it can cut. -/
theorem beforeComment_eq_take (h : CutAt marker quote line i)
    (hfirst : ∀ j < i, ¬CutAt marker quote line j) :
    beforeComment marker quote line = line.take i := by
  induction line generalizing quote i with
  | nil => exact absurd h.lt_length (Nat.not_lt_zero _)
  | cons c line ih =>
    cases i with
    | zero => exact beforeComment_cons_of_cutAt h
    | succ i =>
      rw [beforeComment_cons_of_not_cutAt (hfirst 0 (Nat.succ_pos i)), List.take_succ_cons,
        ih (cutAt_cons_succ_iff.mp h) fun j hj hcut ↦
          hfirst (j + 1) (Nat.succ_lt_succ hj) (cutAt_cons_succ_iff.mpr hcut)]

theorem beforeComment_eq_self (h : ∀ j, ¬CutAt marker quote line j) :
    beforeComment marker quote line = line := by
  induction line generalizing quote with
  | nil => simp only [beforeComment]
  | cons c line ih =>
    rw [beforeComment_cons_of_not_cutAt (h 0),
      ih fun j hcut ↦ h (j + 1) (cutAt_cons_succ_iff.mpr hcut)]

/-- Nothing can be cut off a second time. -/
theorem not_cutAt_beforeComment (marker line : List Char) (j : ℕ) :
    ¬CutAt marker none (beforeComment marker none line) j := by
  classical
  by_cases hcut : ∃ i, CutAt marker none line i
  · have hfirst : ∀ k < Nat.find hcut, ¬CutAt marker none line k := fun _ ↦ Nat.find_min hcut
    rw [beforeComment_eq_take (Nat.find_spec hcut) hfirst]
    intro h
    have hj : j < Nat.find hcut := by
      have hlength := h.lt_length
      rw [List.length_take] at hlength
      omega
    have hwhole := h.pad (a := []) rfl (line.drop (Nat.find hcut))
    rw [List.nil_append, List.take_append_drop, List.length_nil, Nat.zero_add] at hwhole
    exact hfirst j hj hwhole
  · rw [not_exists] at hcut
    rw [beforeComment_eq_self hcut]
    exact hcut j

theorem not_cutAt_stripComment (marker line : List Char) (j : ℕ) :
    ¬CutAt marker none (stripComment marker line) j := by
  obtain ⟨a, b, ha, -, hs⟩ := exists_trim (beforeComment marker none line)
  intro h
  have hnone : ∀ q ∈ (none : Option Char), isQuote q = true := fun _ hq ↦ nomatch hq
  have hopen : openQuote none a = none := openQuote_of_blanks hnone ha
  have hcut := h.pad hopen b
  rw [stripComment, ← hs] at hcut
  exact not_cutAt_beforeComment marker line _ hcut

/-- A marker without quotes opens no span itself. -/
theorem cutAt_iff_markerAt (hmarker : marker ≠ []) (hquote : ∀ c ∈ marker, isQuote c = false) :
    CutAt marker none line i ↔ MarkerAt marker line i := by
  constructor
  · exact fun h ↦ ⟨spansClosed_iff.mpr h.closed, h.marked⟩
  · rintro ⟨hclosed, hmarked⟩
    obtain ⟨c, rest, rfl⟩ := List.exists_cons_of_ne_nil hmarker
    refine ⟨spansClosed_iff.mp hclosed, ⟨c, ?_, hquote c List.mem_cons_self⟩, hmarked⟩
    obtain ⟨behind, hbehind⟩ := hmarked
    rw [← List.head?_drop, ← hbehind]
    rfl

end

/-- A line loses what stands from its first marker outside quoted spans on, or nothing if there is
none, and the blanks at both ends of what is left; no marker outside quoted spans is left. Done
again with the same marker, this changes nothing, not even for an empty marker or one with quotes
in it. -/
theorem stripComment_at_first_marker (line : List Char) :
    (∀ marker : List Char, marker ≠ [] → (∀ c ∈ marker, isQuote c = false) →
      (∀ i, IsLeast {i | MarkerAt marker line i} i →
        stripComment marker line = trim (line.take i)) ∧
      ((∀ i, ¬MarkerAt marker line i) → stripComment marker line = trim line) ∧
      ∀ i, ¬MarkerAt marker (stripComment marker line) i) ∧
    ∀ marker : List Char,
      stripComment marker (stripComment marker line) = stripComment marker line := by
  refine ⟨fun marker hmarker hquote ↦ ⟨fun i hleast ↦ ?_, fun hnone ↦ ?_, fun i h ↦ ?_⟩,
    fun marker ↦ ?_⟩
  · have hcut : CutAt marker none line i := (cutAt_iff_markerAt hmarker hquote).mpr hleast.1
    have hfirst : ∀ j < i, ¬CutAt marker none line j := fun j hj h ↦
      Nat.not_le_of_lt hj (hleast.2 ((cutAt_iff_markerAt hmarker hquote).mp h))
    rw [stripComment, beforeComment_eq_take hcut hfirst]
  · rw [stripComment, beforeComment_eq_self fun j h ↦
      hnone j ((cutAt_iff_markerAt hmarker hquote).mp h)]
  · exact not_cutAt_stripComment marker line i ((cutAt_iff_markerAt hmarker hquote).mpr h)
  · have hself := beforeComment_eq_self (not_cutAt_stripComment marker line)
    calc
      stripComment marker (stripComment marker line)
        = trim (stripComment marker line) := congrArg trim hself
      _ = stripComment marker line := trim_trim _

/-- A marker in a span, then one that overlaps itself, and a span in the comment that is not
closed. -/
theorem stripComment_overlapping :
    IsLeast {i | MarkerAt ['/', '/'] " f('a//b') ///it's".toList i} 11 ∧
      stripComment ['/', '/'] " f('a//b') ///it's".toList =
        trim (" f('a//b') ///it's".toList.take 11) ∧
      ¬MarkerAt ['/', '/'] (stripComment ['/', '/'] " f('a//b') ///it's".toList) 4 := by
  have hleast : IsLeast {i | MarkerAt ['/', '/'] " f('a//b') ///it's".toList i} 11 := by
    refine ⟨by decide, fun j hj ↦ Nat.le_of_not_lt fun hlt ↦ ?_⟩
    have hnone : ∀ j < 11, ¬MarkerAt ['/', '/'] " f('a//b') ///it's".toList j := by
      decide +kernel
    exact hnone j hlt hj
  obtain ⟨hcut, -, hnone⟩ := (stripComment_at_first_marker " f('a//b') ///it's".toList).1
    ['/', '/'] (List.cons_ne_nil _ _) (by simp [isQuote])
  exact ⟨hleast, hcut 11 hleast, hnone 4⟩

end WaveNotebook.Scan
