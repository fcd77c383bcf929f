import Mathlib.Data.List.TakeWhile
import WaveNotebook.Scan.Comment

/-!
# Trimming and comments

A text ends visibly if it has a last character and that one is not blank. Trimming on the right
leaves such a text as it is, and a text keeps its visible end behind any other text. A trimmed
line that is not empty starts with a character that is not blank, so that something of it is left
without its comment, unless the line is a comment as a whole.
-/

namespace WaveNotebook

namespace Text

/-- The text has a last character, which is not blank. -/
def EndsVisible (s : List Char) : Prop :=
  ∃ before c, s = before ++ [c] ∧ isBlank c = false

section

variable {s t : List Char}

theorem EndsVisible.ne_nil (h : EndsVisible s) : s ≠ [] := by
  obtain ⟨before, c, rfl, -⟩ := h
  exact List.append_ne_nil_of_right_ne_nil _ (List.cons_ne_nil _ _)

theorem EndsVisible.append_left (s : List Char) (h : EndsVisible t) : EndsVisible (s ++ t) := by
  obtain ⟨before, c, rfl, hc⟩ := h
  exact ⟨s ++ before, c, (List.append_assoc ..).symm, hc⟩

/-- A text without any blank character. -/
theorem EndsVisible.of_forall (hne : s ≠ []) (h : ∀ c ∈ s, isBlank c = false) : EndsVisible s :=
  ⟨s.dropLast, s.getLast hne, (List.dropLast_concat_getLast hne).symm, h _ (List.getLast_mem hne)⟩

theorem EndsVisible.trimRight_eq (h : EndsVisible s) : trimRight s = s := by
  obtain ⟨before, c, rfl, hc⟩ := h
  unfold trimRight trimLeft
  rw [List.reverse_append, List.reverse_singleton, List.singleton_append,
    List.dropWhile_cons_of_neg (by simp [hc]), List.reverse_cons, List.reverse_reverse]

/-- Pieces that all end visibly, with a separator between them. -/
theorem endsVisible_intercalate (sep : List Char) {pieces : List (List Char)} (hne : pieces ≠ [])
    (h : ∀ piece ∈ pieces, EndsVisible piece) : EndsVisible (sep.intercalate pieces) := by
  induction pieces with
  | nil => exact absurd rfl hne
  | cons piece pieces ih =>
    cases pieces with
    | nil =>
      rw [List.intercalate_singleton]
      exact h piece List.mem_cons_self
    | cons next rest =>
      rw [List.intercalate_cons_cons]
      refine .append_left _ (ih (List.cons_ne_nil _ _) fun p hp ↦ ?_)
      exact h p (List.mem_cons_of_mem _ hp)

theorem trimRight_prefix_self (s : List Char) : trimRight s <+: s := by
  rw [← List.reverse_suffix, trimRight, List.reverse_reverse]
  exact List.dropWhile_suffix _

theorem trimRight_ne_nil (h : ∃ c ∈ s, isBlank c = false) : trimRight s ≠ [] := by
  obtain ⟨c, hc, hblank⟩ := h
  unfold trimRight trimLeft
  rw [Ne, List.reverse_eq_nil_iff, List.dropWhile_eq_nil_iff]
  intro hall
  rw [hall c (List.mem_reverse.mpr hc)] at hblank
  cases hblank

/-- The first character that trimming leaves. -/
theorem isBlank_of_trim_eq_cons {c : Char} {cs : List Char} (h : trim s = c :: cs) :
    isBlank c = false := by
  obtain ⟨behind, hbehind⟩ := trimRight_prefix_self (trimLeft s)
  rw [show trimRight (trimLeft s) = c :: cs from h] at hbehind
  have hhead := List.head?_dropWhile_not isBlank s
  rw [show s.dropWhile isBlank = _ from hbehind.symm] at hhead
  simpa using hhead

theorem trim_cons_ne_nil {c : Char} (hc : isBlank c = false) (cs : List Char) :
    trim (c :: cs) ≠ [] := by
  unfold trim trimLeft
  rw [List.dropWhile_cons_of_neg (by simp [hc])]
  -- only blanks are cut off on the right, so the first character stays
  exact trimRight_ne_nil ⟨c, List.mem_cons_self, hc⟩

end

end Text

/-- The first character of a line stays, unless a comment starts there. -/
theorem Scan.beforeComment_cons {marker : List Char} {c : Char} {cs : List Char}
    (h : marker.isPrefixOf (c :: cs) = false) :
    ∃ rest, beforeComment marker none (c :: cs) = c :: rest := by
  unfold beforeComment
  rw [h]
  split
  · exact ⟨_, rfl⟩
  · exact ⟨_, rfl⟩

/-- A trimmed line that is not empty and not a comment as a whole. -/
theorem Scan.stripComment_ne_nil {marker raw : List Char} (hline : Text.trim raw ≠ [])
    (h : marker.isPrefixOf (Text.trim raw) = false) :
    stripComment marker (Text.trim raw) ≠ [] := by
  cases hraw : Text.trim raw with
  | nil => exact absurd hraw hline
  | cons c cs =>
    rw [hraw] at h
    obtain ⟨rest, hrest⟩ := beforeComment_cons h
    rw [stripComment, hrest]
    exact Text.trim_cons_ne_nil (Text.isBlank_of_trim_eq_cons hraw) rest

end WaveNotebook
