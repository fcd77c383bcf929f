import Mathlib.Data.List.TakeWhile
import WaveNotebook.Text.Blank

/-!
# Blanks around texts

Trimming cuts a text into blanks, the trimmed text and blanks again, and blanks that are put
around a text make no difference to it. So a text that is trimmed stays as it is, and nothing is
left of a text exactly if it is blank as a whole.
-/

namespace WaveNotebook.Text

/-- A text without visible characters. -/
def Blanks (s : List Char) : Prop :=
  ∀ c ∈ s, isBlank c = true

instance (s : List Char) : Decidable (Blanks s) :=
  List.decidableBAll (fun c ↦ isBlank c = true) s

variable {a b s t : List Char}

@[simp]
theorem blanks_nil : Blanks [] :=
  fun _ hc ↦ nomatch hc

theorem ne_of_isBlank {c d : Char} (hc : isBlank c = true) (hd : isBlank d = false) : c ≠ d := by
  rintro rfl
  rw [hc] at hd
  cases hd

theorem Blanks.reverse (h : Blanks s) : Blanks s.reverse :=
  fun c hc ↦ h c (List.mem_reverse.mp hc)

theorem blanks_append_iff : Blanks (s ++ t) ↔ Blanks s ∧ Blanks t := by
  simp only [Blanks, List.mem_append]
  exact ⟨fun h ↦ ⟨fun c hc ↦ h c (.inl hc), fun c hc ↦ h c (.inr hc)⟩,
    fun h c hc ↦ hc.elim (h.1 c) (h.2 c)⟩

theorem blanks_cons_iff {c : Char} : Blanks (c :: s) ↔ isBlank c = true ∧ Blanks s :=
  List.forall_mem_cons

theorem trimLeft_eq_nil_iff : trimLeft s = [] ↔ Blanks s := by
  unfold trimLeft
  exact List.dropWhile_eq_nil_iff

theorem trimLeft_append (h : Blanks a) (s : List Char) : trimLeft (a ++ s) = trimLeft s := by
  have hnil : a.dropWhile isBlank = [] := trimLeft_eq_nil_iff.mpr h
  unfold trimLeft
  rw [List.dropWhile_append, hnil]
  rfl

/-- A text that is not blank keeps everything that stands behind it. -/
theorem trimLeft_append_of_not_blanks (h : ¬Blanks s) (t : List Char) :
    trimLeft (s ++ t) = trimLeft s ++ t := by
  unfold trimLeft
  rw [List.dropWhile_append, if_neg]
  rw [List.isEmpty_iff]
  exact fun hnil ↦ h (trimLeft_eq_nil_iff.mp hnil)

/-- The blanks that trimming on the left takes away. -/
theorem exists_trimLeft (s : List Char) : ∃ a, Blanks a ∧ s = a ++ trimLeft s :=
  ⟨s.takeWhile isBlank, fun _ hc ↦ List.mem_takeWhile_imp hc, List.takeWhile_append_dropWhile.symm⟩

theorem trimRight_append (h : Blanks b) (s : List Char) : trimRight (s ++ b) = trimRight s := by
  unfold trimRight
  rw [List.reverse_append, trimLeft_append h.reverse]

/-- A text that is not blank keeps everything that stands before it. -/
theorem trimRight_append_of_not_blanks (h : ¬Blanks t) (s : List Char) :
    trimRight (s ++ t) = s ++ trimRight t := by
  have hvisible : trimLeft t.reverse ≠ [] := fun hnil ↦ by
    have hreverse := (trimLeft_eq_nil_iff.mp hnil).reverse
    rw [List.reverse_reverse] at hreverse
    exact h hreverse
  unfold trimRight trimLeft at *
  rw [List.reverse_append, List.dropWhile_append, if_neg (by simpa using hvisible),
    List.reverse_append, List.reverse_reverse]

theorem trimRight_cons_of_blanks (h : Blanks s) (c : Char) :
    trimRight (c :: s) = trimRight [c] :=
  trimRight_append h [c]

theorem trimRight_cons_of_not_blanks (h : ¬Blanks s) (c : Char) :
    trimRight (c :: s) = c :: trimRight s :=
  trimRight_append_of_not_blanks h [c]

theorem trimRight_eq_nil_iff : trimRight s = [] ↔ Blanks s := by
  unfold trimRight
  rw [List.reverse_eq_nil_iff, trimLeft_eq_nil_iff]
  exact ⟨fun h ↦ by simpa using h.reverse, Blanks.reverse⟩

theorem exists_trimRight (s : List Char) : ∃ b, Blanks b ∧ s = trimRight s ++ b := by
  obtain ⟨b, hb, hs⟩ := exists_trimLeft s.reverse
  refine ⟨b.reverse, hb.reverse, ?_⟩
  unfold trimRight
  rw [← List.reverse_append, ← hs, List.reverse_reverse]

/-! ## Both ends -/

theorem trim_eq_nil_iff : trim s = [] ↔ Blanks s := by
  unfold trim
  rw [trimRight_eq_nil_iff]
  obtain ⟨a, ha, hs⟩ := exists_trimLeft s
  constructor
  · intro h
    rw [hs]
    exact blanks_append_iff.mpr ⟨ha, h⟩
  · intro h
    rw [trimLeft_eq_nil_iff.mpr h]
    exact blanks_nil

/-- Blanks around a text are taken away. -/
theorem trim_pad (ha : Blanks a) (hb : Blanks b) (s : List Char) : trim (a ++ s ++ b) = trim s := by
  by_cases hs : Blanks s
  · rw [trim_eq_nil_iff.mpr hs]
    exact trim_eq_nil_iff.mpr (blanks_append_iff.mpr ⟨blanks_append_iff.mpr ⟨ha, hs⟩, hb⟩)
  · unfold trim
    rw [List.append_assoc, trimLeft_append ha, trimLeft_append_of_not_blanks hs,
      trimRight_append hb]

theorem exists_trim (s : List Char) : ∃ a b, Blanks a ∧ Blanks b ∧ s = a ++ trim s ++ b := by
  obtain ⟨a, ha, hs⟩ := exists_trimLeft s
  obtain ⟨b, hb, ht⟩ := exists_trimRight (trimLeft s)
  exact ⟨a, b, ha, hb, by rw [List.append_assoc, trim, ← ht, ← hs]⟩

@[simp]
theorem trim_trim (s : List Char) : trim (trim s) = trim s := by
  obtain ⟨a, b, ha, hb, hs⟩ := exists_trim s
  rw [← trim_pad ha hb (trim s), ← hs]

@[simp]
theorem trim_trimLeft (s : List Char) : trim (trimLeft s) = trim s := by
  obtain ⟨a, ha, hs⟩ := exists_trimLeft s
  have hpad := trim_pad ha blanks_nil (trimLeft s)
  rw [List.append_nil, ← hs] at hpad
  exact hpad.symm

@[simp]
theorem trim_trimRight (s : List Char) : trim (trimRight s) = trim s := by
  obtain ⟨b, hb, hs⟩ := exists_trimRight s
  have hpad := trim_pad blanks_nil hb (trimRight s)
  rw [List.nil_append, ← hs] at hpad
  exact hpad.symm

theorem infix_trim (s : List Char) : trim s <:+: s := by
  obtain ⟨a, b, -, -, hs⟩ := exists_trim s
  exact ⟨a, b, hs.symm⟩

theorem length_trim_le (s : List Char) : (trim s).length ≤ s.length :=
  (infix_trim s).length_le

/-- A character of a trimmed text is one of the text. -/
theorem mem_of_mem_trim {c : Char} (h : c ∈ trim s) : c ∈ s :=
  (infix_trim s).mem h

/-- There is nothing to trim in a text without blanks. -/
theorem trim_of_forall (h : ∀ c ∈ s, isBlank c = false) : trim s = s := by
  have hnil : ∀ t, Blanks t → (∀ c ∈ t, c ∈ s) → t = [] := by
    intro t ht hmem
    refine List.eq_nil_iff_forall_not_mem.mpr fun c hc ↦ ?_
    have hblank := ht c hc
    rw [h c (hmem c hc)] at hblank
    cases hblank
  obtain ⟨a, b, ha, hb, hs⟩ := exists_trim s
  have ha' : a = [] := hnil a ha fun c hc ↦ by
    rw [hs]
    exact List.mem_append_left _ (List.mem_append_left _ hc)
  have hb' : b = [] := hnil b hb fun c hc ↦ by
    rw [hs]
    exact List.mem_append_right _ hc
  rw [ha', hb', List.nil_append, List.append_nil] at hs
  exact hs.symm

end WaveNotebook.Text
