import WaveNotebook.Proofs.Text.Blank
import WaveNotebook.Text.Identifier

/-!
# Plain names

No character of a plain name is blank, a bracket, a quote or a dot. So a plain name stays as it is
when blanks around it are trimmed, and no scanner stops in it.
-/

namespace WaveNotebook.Text

theorem isPlainStart_iff (c : Char) : isPlainStart c = true ↔
    ((65 ≤ c.toNat ∧ c.toNat ≤ 90) ∨ 97 ≤ c.toNat ∧ c.toNat ≤ 122) ∨ c = '_' := by
  have hupper : c.isUpper = true ↔ 65 ≤ c.toNat ∧ c.toNat ≤ 90 := decide_eq_true_iff
  have hlower : c.isLower = true ↔ 97 ≤ c.toNat ∧ c.toNat ≤ 122 := by
    change (decide (97 ≤ c.toNat) && decide (c.toNat ≤ 122)) = true ↔ _
    rw [Bool.and_eq_true, decide_eq_true_iff, decide_eq_true_iff]
  change (c.isUpper || c.isLower || c == '_') = true ↔ _
  rw [Bool.or_eq_true, Bool.or_eq_true, hupper, hlower, beq_iff_eq]

theorem isPlainPart_iff (c : Char) : isPlainPart c = true ↔
    isPlainStart c = true ∨ 48 ≤ c.toNat ∧ c.toNat ≤ 57 := by
  have hdigit : c.isDigit = true ↔ 48 ≤ c.toNat ∧ c.toNat ≤ 57 := by
    change (decide (48 ≤ c.toNat) && decide (c.toNat ≤ 57)) = true ↔ _
    rw [Bool.and_eq_true, decide_eq_true_iff, decide_eq_true_iff]
  change (c.isAlpha || c.isDigit || c == '_') = true ↔ (c.isAlpha || c == '_') = true ∨ _
  rw [Bool.or_eq_true, Bool.or_eq_true, Bool.or_eq_true, hdigit]
  exact or_right_comm

theorem isPlainPart_of_isPlainStart {c : Char} (h : isPlainStart c = true) :
    isPlainPart c = true :=
  (isPlainPart_iff c).mpr (.inl h)

theorem isPlainPart_of_isBlank {c : Char} (h : isBlank c = true) : isPlainPart c = false := by
  rw [Bool.eq_false_iff, Ne, isPlainPart_iff, isPlainStart_iff]
  rintro ((hrange | rfl) | hrange)
  · simp only [isBlank, Bool.or_eq_true, Bool.and_eq_true, decide_eq_true_eq, beq_iff_eq] at h
    omega
  · revert h
    decide
  · simp only [isBlank, Bool.or_eq_true, Bool.and_eq_true, decide_eq_true_eq, beq_iff_eq] at h
    omega

theorem isBlank_of_isPlainStart {c : Char} (h : isPlainStart c = true) : isBlank c = false := by
  rw [Bool.eq_false_iff]
  intro hblank
  have hpart := isPlainPart_of_isBlank hblank
  rw [isPlainPart_of_isPlainStart h] at hpart
  cases hpart

section

variable {name : List Char} (h : isPlainName name = true)

include h

theorem isPlainPart_of_isPlainName : ∀ c ∈ name, isPlainPart c = true := by
  cases name with
  | nil => cases h
  | cons c cs =>
    simp only [isPlainName, Bool.and_eq_true, List.all_eq_true] at h
    intro d hd
    obtain rfl | hd := List.mem_cons.mp hd
    · exact isPlainPart_of_isPlainStart h.1
    · exact h.2 d hd

theorem not_blanks_of_isPlainName : ¬Blanks name := by
  cases name with
  | nil => cases h
  | cons c cs =>
    simp only [isPlainName, Bool.and_eq_true] at h
    intro hblanks
    have hc := hblanks c List.mem_cons_self
    rw [isBlank_of_isPlainStart h.1] at hc
    cases hc

theorem not_mem_of_isPlainName {c : Char} (hc : isPlainPart c = false) : c ∉ name := by
  intro hmem
  rw [isPlainPart_of_isPlainName h c hmem] at hc
  cases hc

theorem trimLeft_of_isPlainName : trimLeft name = name := by
  cases name with
  | nil => cases h
  | cons c cs =>
    simp only [isPlainName, Bool.and_eq_true] at h
    exact List.dropWhile_cons_of_neg (by simp [isBlank_of_isPlainStart h.1])

theorem trim_of_isPlainName : trim name = name := by
  refine trim_of_forall fun c hc ↦ ?_
  rw [Bool.eq_false_iff]
  exact fun hblank ↦ not_mem_of_isPlainName h (isPlainPart_of_isBlank hblank) hc

end

end WaveNotebook.Text
