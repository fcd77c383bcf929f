import WaveNotebook.Proofs.Text.Blank
import WaveNotebook.Proofs.Text.Trim

/-!
# Comments behind a line

A line is dropped from its first marker on that stands where no quote is open. So a line without
such a marker, whose quotes are closed, is all that is left of it with a marker and a comment
behind it. This also holds for a marker that begins in the line and ends in the first marker
behind it: it is the earlier one, so the line must be free of those too.
-/

namespace WaveNotebook.Scan

open Text

@[simp]
theorem quoteAfter_self (q : Char) : quoteAfter (some q) q = none :=
  if_pos rfl

theorem quoteAfter_of_ne {c q : Char} (h : c ≠ q) : quoteAfter (some q) c = some q :=
  if_neg h

theorem quoteAfter_of_isQuote {c : Char} (h : isQuote c = true) : quoteAfter none c = some c :=
  if_pos h

theorem quoteAfter_of_not_isQuote {c : Char} (h : isQuote c = false) : quoteAfter none c = none :=
  if_neg (by simp [h])

/-- The quote that is open behind a text. -/
def openQuote (quote : Option Char) (s : List Char) : Option Char :=
  s.foldl quoteAfter quote

@[simp]
theorem openQuote_nil (quote : Option Char) : openQuote quote [] = quote :=
  rfl

@[simp]
theorem openQuote_cons (quote : Option Char) (c : Char) (s : List Char) :
    openQuote quote (c :: s) = openQuote (quoteAfter quote c) s :=
  rfl

theorem openQuote_append (quote : Option Char) (s t : List Char) :
    openQuote quote (s ++ t) = openQuote (openQuote quote s) t :=
  List.foldl_append

theorem isBlank_of_isQuote {c : Char} (h : isQuote c = true) : isBlank c = false := by
  simp only [isQuote, Bool.or_eq_true, beq_iff_eq] at h
  obtain rfl | rfl := h
  · decide
  · decide

theorem isQuote_of_isBlank {c : Char} (h : isBlank c = true) : isQuote c = false := by
  rw [Bool.eq_false_iff]
  intro hquote
  rw [isBlank_of_isQuote hquote] at h
  cases h

/-- Only quotes are ever open. -/
theorem isQuote_of_openQuote {quote : Option Char} (hquote : ∀ q ∈ quote, isQuote q = true)
    (s : List Char) : ∀ q ∈ openQuote quote s, isQuote q = true := by
  induction s generalizing quote with
  | nil => exact hquote
  | cons c cs ih =>
    refine ih fun q hq ↦ ?_
    cases quote with
    | some p =>
      simp only [quoteAfter, Option.mem_def, Option.ite_none_left_eq_some] at hq
      exact hquote q hq.2
    | none =>
      simp only [quoteAfter, Option.mem_def, Option.ite_none_right_eq_some, Option.some.injEq] at hq
      exact hq.2 ▸ hq.1

theorem quoteAfter_of_isBlank {quote : Option Char} (hquote : ∀ q ∈ quote, isQuote q = true)
    {c : Char} (hc : isBlank c = true) : quoteAfter quote c = quote := by
  cases quote with
  | some q => exact quoteAfter_of_ne (ne_of_isBlank hc (isBlank_of_isQuote (hquote q rfl)))
  | none => exact quoteAfter_of_not_isQuote (isQuote_of_isBlank hc)

/-- A character is undone by the same character: a quote opens what it closes. -/
theorem quoteAfter_quoteAfter {quote : Option Char} (hquote : ∀ q ∈ quote, isQuote q = true)
    (c : Char) : quoteAfter (quoteAfter quote c) c = quote := by
  cases quote with
  | none =>
    cases hc : isQuote c with
    | true => rw [quoteAfter_of_isQuote hc, quoteAfter_self]
    | false => rw [quoteAfter_of_not_isQuote hc, quoteAfter_of_not_isQuote hc]
  | some q =>
    by_cases hc : c = q
    · rw [hc, quoteAfter_self, quoteAfter_of_isQuote (hquote q rfl)]
    · rw [quoteAfter_of_ne hc, quoteAfter_of_ne hc]

/-- Scans of one text that agree on the open quote behind it have agreed from its start. -/
theorem openQuote_inj {quote quote' : Option Char} (hquote : ∀ q ∈ quote, isQuote q = true)
    (hquote' : ∀ q ∈ quote', isQuote q = true) {s : List Char}
    (h : openQuote quote s = openQuote quote' s) : quote = quote' := by
  induction s generalizing quote quote' with
  | nil => exact h
  | cons c s ih =>
    have hafter : quoteAfter quote c = quoteAfter quote' c :=
      ih (isQuote_of_openQuote hquote [c]) (isQuote_of_openQuote hquote' [c]) h
    rw [← quoteAfter_quoteAfter hquote c, hafter, quoteAfter_quoteAfter hquote' c]

/-- Blanks neither open nor close a quote. -/
theorem openQuote_of_blanks {quote : Option Char} (hquote : ∀ q ∈ quote, isQuote q = true)
    {s : List Char} (h : Blanks s) : openQuote quote s = quote := by
  induction s with
  | nil => rfl
  | cons c cs ih =>
    rw [openQuote_cons, quoteAfter_of_isBlank hquote (h c List.mem_cons_self)]
    exact ih fun d hd ↦ h d (List.mem_cons_of_mem _ hd)

/-- Blanks around a text make no difference to its quotes. -/
theorem openQuote_pad {a b : List Char} (ha : Blanks a) (hb : Blanks b) (s : List Char) :
    openQuote none (a ++ s ++ b) = openQuote none s := by
  have hnone : ∀ q ∈ (none : Option Char), isQuote q = true := fun _ hq ↦ nomatch hq
  rw [openQuote_append, openQuote_append, openQuote_of_blanks hnone ha,
    openQuote_of_blanks (isQuote_of_openQuote hnone s) hb]

theorem beforeComment_prefix (marker : List Char) (quote : Option Char) (s : List Char) :
    beforeComment marker quote s <+: s := by
  induction s generalizing quote with
  | nil => simp only [beforeComment, List.nil_prefix]
  | cons c s ih =>
    cases quote with
    | some q => exact (List.prefix_cons_inj c).mpr (ih _)
    | none =>
      unfold beforeComment
      split
      · exact (List.prefix_cons_inj c).mpr (ih _)
      · split
        · exact List.nil_prefix
        · exact (List.prefix_cons_inj c).mpr (ih _)

/-- No marker begins in the line where no quote is open, with the given text behind the line. -/
def Unmarked (marker : List Char) (quote : Option Char) (line behind : List Char) : Prop :=
  ∀ i < line.length, openQuote quote (line.take i) = none → ¬marker <+: (line ++ behind).drop i

instance (marker : List Char) (quote : Option Char) (line behind : List Char) :
    Decidable (Unmarked marker quote line behind) :=
  inferInstanceAs (Decidable (∀ i < line.length, openQuote quote (line.take i) = none →
    ¬marker <+: (line ++ behind).drop i))

section

variable {marker line behind comment s : List Char} {quote : Option Char}

theorem Unmarked.tail {c : Char} {cs : List Char} (h : Unmarked marker quote (c :: cs) behind) :
    Unmarked marker (quoteAfter quote c) cs behind := by
  intro i hi hopen
  exact h (i + 1) (Nat.succ_lt_succ hi) hopen

theorem unmarked_nil : Unmarked marker quote [] behind :=
  fun _ hi ↦ absurd hi (Nat.not_lt_zero _)

theorem unmarked_cons_iff {c : Char} : Unmarked marker quote (c :: line) behind ↔
    (quote = none → ¬marker <+: c :: (line ++ behind)) ∧
      Unmarked marker (quoteAfter quote c) line behind := by
  constructor
  · exact fun h ↦ ⟨h 0 (Nat.succ_pos _), h.tail⟩
  · rintro ⟨hhead, htail⟩ i hi hopen
    cases i with
    | zero => exact hhead hopen
    | succ i => exact htail i (Nat.lt_of_succ_lt_succ hi) hopen

theorem unmarked_append_iff : Unmarked marker quote (line ++ s) behind ↔
    Unmarked marker quote line (s ++ behind) ∧
      Unmarked marker (openQuote quote line) s behind := by
  induction line generalizing quote with
  | nil => exact (and_iff_right unmarked_nil).symm
  | cons c cs ih =>
    rw [List.cons_append, unmarked_cons_iff, unmarked_cons_iff, ih, openQuote_cons,
      List.append_assoc, and_assoc]

/-- A longer marker is not there either. -/
theorem Unmarked.longer {marker' : List Char} (hmarkers : marker <+: marker')
    (h : Unmarked marker quote line behind) : Unmarked marker' quote line behind :=
  fun i hi hopen hmarker ↦ h i hi hopen (hmarkers.trans hmarker)

/-- A marker that is not there in one text is not there in the beginning of the text. -/
theorem Unmarked.of_append (h : Unmarked marker quote (line ++ s) behind) :
    Unmarked marker quote line [] := by
  intro i hi hopen hmarker
  refine h i (by simp; omega) ?_ ?_
  · rwa [List.take_append_of_le_length (Nat.le_of_lt hi)]
  · rw [List.append_nil] at hmarker
    rw [List.append_assoc, List.drop_append_of_le_length (Nat.le_of_lt hi)]
    exact hmarker.trans (List.prefix_append _ _)

/-- A whole marker behind the line keeps out what comes behind it. -/
theorem Unmarked.extend (h : Unmarked marker quote line marker) (comment : List Char) :
    Unmarked marker quote line (marker ++ comment) := by
  intro i hi hopen hmarker
  refine h i hi hopen ?_
  rw [← List.append_assoc, List.drop_append_of_le_length (by simp; omega)] at hmarker
  refine List.prefix_of_prefix_length_le hmarker (List.prefix_append _ _) ?_
  rw [List.length_drop, List.length_append]
  omega

theorem Unmarked.drop_blanks (h : Unmarked marker none (s ++ line) behind) (hs : Blanks s) :
    Unmarked marker none line behind := by
  intro i hi hopen hmarker
  refine h (s.length + i) (by simp; omega) ?_ ?_
  · rw [List.take_length_add_append, ← List.append_nil (s ++ _), openQuote_pad hs blanks_nil]
    exact hopen
  · rwa [List.append_assoc, List.drop_length_add_append]

/-- The first character of a line without markers starts none. -/
theorem Unmarked.not_prefix_append (h : Unmarked marker none line behind) (hline : line ≠ []) :
    ¬marker <+: line ++ behind :=
  h 0 (List.length_pos_iff.mpr hline) rfl

/-- What stands before the first marker is kept, and the scan goes on behind it. -/
theorem beforeComment_append (hclosed : openQuote quote line = none)
    (h : Unmarked marker quote line behind) :
    beforeComment marker quote (line ++ behind) = line ++ beforeComment marker none behind := by
  induction line generalizing quote with
  | nil =>
    obtain rfl : quote = none := hclosed
    rfl
  | cons c cs ih =>
    have hrest := ih hclosed h.tail
    cases quote with
    | some q =>
      rw [List.cons_append, beforeComment, hrest]
      rfl
    | none =>
      have hmarker : marker.isPrefixOf (c :: (cs ++ behind)) = false := by
        rw [Bool.eq_false_iff, Ne, List.isPrefixOf_iff_prefix]
        exact h.not_prefix_append (List.cons_ne_nil _ _)
      rw [List.cons_append, beforeComment, hmarker]
      rw [quoteAfter] at hrest
      split
      · rename_i hc
        rw [if_pos hc] at hrest
        rw [hrest]
        rfl
      · rename_i hc
        rw [if_neg hc] at hrest
        rw [if_neg Bool.false_ne_true, hrest]
        rfl

/-- Nothing is cut off from a text without markers whose quotes are closed. -/
theorem stripComment_of_unmarked (hclosed : openQuote none line = none)
    (h : Unmarked marker none line []) : stripComment marker line = trim line := by
  have hcomment := beforeComment_append hclosed h
  rw [List.append_nil] at hcomment
  rw [stripComment, hcomment, beforeComment, List.append_nil]

theorem beforeComment_marker (hmarker : marker ≠ [])
    (hquote : ∀ c ∈ marker.head?, isQuote c = false) (comment : List Char) :
    beforeComment marker none (marker ++ comment) = [] := by
  cases marker with
  | nil => exact absurd rfl hmarker
  | cons c cs =>
    have hprefix : (c :: cs).isPrefixOf (c :: (cs ++ comment)) = true := by
      rw [List.isPrefixOf_iff_prefix]
      exact List.prefix_append (c :: cs) comment
    rw [List.cons_append, beforeComment, if_neg (by simp [hquote c rfl]), if_pos hprefix]

end

/-! ## Characters that are quoted -/

/-- The character stands in the text in quoted spans only, and they are closed. -/
structure Hides (d : Char) (s : List Char) : Prop where
  unmarked : ∀ behind, Unmarked [d] none s behind
  closed : openQuote none s = none

namespace Hides

variable {d : Char} {s t : List Char}

theorem nil : Hides d [] :=
  ⟨fun _ ↦ unmarked_nil, rfl⟩

theorem append (hs : Hides d s) (ht : Hides d t) : Hides d (s ++ t) where
  unmarked behind := by
    rw [unmarked_append_iff, hs.closed]
    exact ⟨hs.unmarked (t ++ behind), ht.unmarked behind⟩
  closed := by rw [openQuote_append, hs.closed, ht.closed]

theorem single {c : Char} (hc : isQuote c = false) (hne : c ≠ d) : Hides d [c] where
  unmarked _ := unmarked_cons_iff.mpr
    ⟨fun _ hmarker ↦ hne (List.cons_prefix_cons.mp hmarker).1.symm, unmarked_nil⟩
  closed := quoteAfter_of_not_isQuote hc

theorem of_forall (h : ∀ c ∈ s, isQuote c = false ∧ c ≠ d) : Hides d s := by
  induction s with
  | nil => exact nil
  | cons c cs ih =>
    have hc := h c List.mem_cons_self
    exact (single hc.1 hc.2).append (ih fun e he ↦ h e (List.mem_cons_of_mem _ he))

theorem span {q : Char} (hd : isQuote d = false) (hq : isQuote q = true) (h : q ∉ s) :
    Hides d (q :: (s ++ [q])) := by
  have hinside : (∀ behind, Unmarked [d] (some q) (s ++ [q]) behind) ∧
      openQuote (some q) (s ++ [q]) = none := by
    induction s with
    | nil =>
      exact ⟨fun _ ↦ unmarked_cons_iff.mpr ⟨(nomatch ·), unmarked_nil⟩, quoteAfter_self q⟩
    | cons c cs ih =>
      rw [List.mem_cons, not_or] at h
      obtain ⟨hunmarked, hclosed⟩ := ih h.2
      refine ⟨fun behind ↦ unmarked_cons_iff.mpr ⟨(nomatch ·), ?_⟩, ?_⟩
      · rw [quoteAfter_of_ne (Ne.symm h.1)]
        exact hunmarked behind
      · rw [List.cons_append, openQuote_cons, quoteAfter_of_ne (Ne.symm h.1), hclosed]
  refine ⟨fun behind ↦ unmarked_cons_iff.mpr ⟨fun _ hmarker ↦ ?_, ?_⟩, ?_⟩
  · rw [(List.cons_prefix_cons.mp hmarker).1, hq] at hd
    cases hd
  · rw [quoteAfter_of_isQuote hq]
    exact hinside.1 behind
  · rw [openQuote_cons, quoteAfter_of_isQuote hq]
    exact hinside.2

/-- No comment starts in a text that hides the first character of the marker. -/
theorem stripComment_eq (h : Hides d s) (marker : List Char) :
    stripComment (d :: marker) s = trim s :=
  stripComment_of_unmarked h.closed ((h.unmarked []).longer ⟨marker, rfl⟩)

end Hides

end WaveNotebook.Scan
