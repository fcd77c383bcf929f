import WaveNotebook.Kernel.Window
import WaveNotebook.Proofs.Kernel.Exact

/-!
# Windows over the real numbers

The phases of a window go once around the circle, and the phases at equal distances from its two
ends are opposite to each other, so that a window is the same from both ends. Its coefficients
are a polynomial of second degree in the cosine of the phase, which falls from one at the middle
of the window to a value that is not negative at its ends.
-/

open scoped Real

namespace WaveNotebook.Window

/-! ## The polynomial -/

/-- Weights for which the polynomial is one where the cosine is minus one, and falls towards a value
that is not negative where it is one. -/
structure Tapers (a₀ a₁ a₂ : ℝ) : Prop where
  total : a₀ + a₁ + a₂ = 1
  last_nonneg : 0 ≤ a₀ - a₁ + a₂
  second_nonneg : 0 ≤ a₂
  second_le : 4 * a₂ ≤ a₁

variable {a₀ a₁ a₂ : ℝ}

theorem cosineSum_eq (a₀ a₁ a₂ φ : ℝ) :
    cosineSum a₀ a₁ a₂ φ = a₀ - a₁ * Real.cos φ + a₂ * (2 * Real.cos φ ^ 2 - 1) := by
  rw [← Real.cos_two_mul]
  rfl

theorem Tapers.cosineSum_nonneg (h : Tapers a₀ a₁ a₂) (φ : ℝ) : 0 ≤ cosineSum a₀ a₁ a₂ φ := by
  have hone : 0 ≤ 1 - Real.cos φ := sub_nonneg.mpr (Real.cos_le_one φ)
  have hslope : 0 ≤ a₁ - 2 * a₂ * (1 + Real.cos φ) := by
    nlinarith [h.second_nonneg, h.second_le]
  calc
    0 ≤ (a₀ - a₁ + a₂) + (1 - Real.cos φ) * (a₁ - 2 * a₂ * (1 + Real.cos φ)) :=
      add_nonneg h.last_nonneg (mul_nonneg hone hslope)
    _ = cosineSum a₀ a₁ a₂ φ := by
      rw [cosineSum_eq]
      ring

theorem Tapers.cosineSum_le_one (h : Tapers a₀ a₁ a₂) (φ : ℝ) : cosineSum a₀ a₁ a₂ φ ≤ 1 := by
  have hone : 0 ≤ 1 - Real.cos φ := sub_nonneg.mpr (Real.cos_le_one φ)
  have hplus : 0 ≤ 1 + Real.cos φ := by linarith [Real.neg_one_le_cos φ]
  have hslope : 0 ≤ a₁ + 2 * a₂ * (1 - Real.cos φ) := by
    have hproduct : 0 ≤ a₂ * (1 - Real.cos φ) := mul_nonneg h.second_nonneg hone
    linarith [h.second_nonneg, h.second_le]
  calc
    cosineSum a₀ a₁ a₂ φ = (a₀ + a₁ + a₂) -
        (1 + Real.cos φ) * (a₁ + 2 * a₂ * (1 - Real.cos φ)) := by
      rw [cosineSum_eq]
      ring
    _ ≤ a₀ + a₁ + a₂ := sub_le_self _ (mul_nonneg hplus hslope)
    _ = 1 := h.total

/-! ## Phases -/

/-- The phases at equal distances from the two ends make a full turn. -/
theorem phase_symm {n i : ℕ} (hn : n ≠ 1) (hi : i < n) :
    phase n (n - 1 - i) = 2 * π - phase n i := by
  have hlast : ((n - 1 : ℕ) : ℝ) ≠ 0 := Nat.cast_ne_zero.mpr (by omega)
  unfold phase
  rw [Nat.cast_sub (by omega : i ≤ n - 1)]
  change (2 : ℕ) * π * (((n - 1 : ℕ) : ℝ) - i) / ((n - 1 : ℕ) : ℝ) =
    2 * π - (2 : ℕ) * π * i / ((n - 1 : ℕ) : ℝ)
  field_simp
  push_cast
  ring

theorem cosineSum_phase_symm (a₀ a₁ a₂ : ℝ) {n i : ℕ} (hn : n ≠ 1) (hi : i < n) :
    cosineSum a₀ a₁ a₂ (phase n (n - 1 - i)) = cosineSum a₀ a₁ a₂ (phase n i) := by
  rw [cosineSum_eq, cosineSum_eq, phase_symm hn hi, Real.cos_two_pi_sub]

/-! ## Curves -/

/-- So many coefficients between zero and one, which are the same from both ends. -/
structure IsTaper (n : ℕ) (curve : List ℝ) : Prop where
  length_eq : curve.length = n
  reverse_eq : curve.reverse = curve
  nonneg : ∀ x ∈ curve, 0 ≤ x
  le_one : ∀ x ∈ curve, x ≤ 1

theorem isTaper_replicate_one (n : ℕ) : IsTaper n (List.replicate n 1) where
  length_eq := List.length_replicate
  reverse_eq := List.reverse_replicate
  nonneg x hx := by
    rw [List.eq_of_mem_replicate hx]
    exact zero_le_one
  le_one x hx := by
    rw [List.eq_of_mem_replicate hx]

theorem Tapers.isTaper_cosineCurve (h : Tapers a₀ a₁ a₂) (n : ℕ) :
    IsTaper n (cosineCurve n a₀ a₁ a₂) := by
  unfold cosineCurve
  split
  · rename_i hn
    rw [hn, Nat.cast_one]
    exact isTaper_replicate_one 1
  · rename_i hn
    constructor
    · rw [List.length_map, List.length_range]
    · apply List.ext_getElem
      · rw [List.length_reverse]
      · intro i hi _
        rw [List.length_reverse, List.length_map, List.length_range] at hi
        simp only [List.getElem_reverse, List.getElem_map, List.getElem_range, List.length_map,
          List.length_range]
        exact cosineSum_phase_symm a₀ a₁ a₂ hn hi
    · intro x hx
      obtain ⟨i, -, rfl⟩ := List.mem_map.mp hx
      exact h.cosineSum_nonneg _
    · intro x hx
      obtain ⟨i, -, rfl⟩ := List.mem_map.mp hx
      exact h.cosineSum_le_one _

theorem isTaper_coefficients (w : Window) (n : ℕ) : IsTaper n (w.coefficients n) := by
  cases w with
  | hamming =>
    have h : Tapers 0.54 0.46 ((0 : ℕ) : ℝ) := by constructor <;> norm_num
    exact h.isTaper_cosineCurve n
  | hanning =>
    have h : Tapers 0.5 0.5 ((0 : ℕ) : ℝ) := by constructor <;> norm_num
    exact h.isTaper_cosineCurve n
  | blackman =>
    have h : Tapers 0.42 0.5 0.08 := by constructor <;> norm_num
    exact h.isTaper_cosineCurve n
  | rectangular =>
    change IsTaper n (List.replicate n ((1 : ℕ) : ℝ))
    rw [Nat.cast_one]
    exact isTaper_replicate_one n

/-! ## Divisions -/

/-- The coefficients with another division. -/
noncomputable def coefficientsWith (divide : ℝ → ℝ → ℝ) (w : Window) (n : ℕ) : List ℝ :=
  letI : Div ℝ := ⟨divide⟩
  w.coefficients n

variable {divide : ℝ → ℝ → ℝ} (hdivide : ∀ x y, y ≠ 0 → divide x y = x / y)

include hdivide

theorem cosineCurve_of_divide (n : ℕ) (a₀ a₁ a₂ : ℝ) :
    @cosineCurve ℝ _ _ _ _ ⟨divide⟩ _ n a₀ a₁ a₂ = cosineCurve n a₀ a₁ a₂ := by
  by_cases hn : n = 1
  · rw [hn]
    rfl
  · unfold cosineCurve
    rw [if_neg hn, if_neg hn]
    refine List.map_congr_left fun i hi ↦ ?_
    have hlast : ((n - 1 : ℕ) : ℝ) ≠ 0 := by
      have hlt := List.mem_range.mp hi
      exact Nat.cast_ne_zero.mpr (by omega)
    exact congrArg (cosineSum a₀ a₁ a₂) (hdivide _ _ hlast)

/-- No coefficient is made by a division by zero: what such a division gives makes no difference. -/
theorem coefficientsWith_eq (w : Window) (n : ℕ) :
    coefficientsWith divide w n = w.coefficients n := by
  cases w with
  | rectangular => rfl
  | _ => exact cosineCurve_of_divide hdivide n _ _ _

end WaveNotebook.Window
