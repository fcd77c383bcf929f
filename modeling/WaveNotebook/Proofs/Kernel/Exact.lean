import Mathlib.Analysis.SpecialFunctions.Trigonometric.Basic
import WaveNotebook.Kernel.Fourier

/-!
# Kernels in exact arithmetic

The kernels are written over any type of numbers. Over the real numbers the elementary functions
are those of analysis, a sum does not depend on the order of its terms, and Cartesian pairs are
the complex numbers, among them the twiddle factors, which are roots of unity.
-/

open scoped Real

namespace WaveNotebook

noncomputable instance : Elementary ℝ where
  pi := π
  sqrt := Real.sqrt
  fourthPower x := x ^ 4
  sin := Real.sin
  cos := Real.cos
  exp := Real.exp

instance : FiniteTest ℝ := ⟨fun _ ↦ true⟩

theorem sum_eq_sum {α : Type} [AddCommMonoidWithOne α] (xs : List α) : sum xs = xs.sum := by
  rw [sum, Nat.cast_zero, List.sum_eq_foldl]

namespace Cartesian

/-- The complex number with the given coordinates. -/
def toComplex (z : Cartesian ℝ) : ℂ := ⟨z.re, z.im⟩

theorem toComplex_add (z w : Cartesian ℝ) : (z + w).toComplex = z.toComplex + w.toComplex := rfl

theorem toComplex_sub (z w : Cartesian ℝ) : (z - w).toComplex = z.toComplex - w.toComplex := by
  apply Complex.ext
  · rfl
  · rfl

theorem toComplex_mul (z w : Cartesian ℝ) : (z * w).toComplex = z.toComplex * w.toComplex := rfl

/-- A twiddle factor lies on the unit circle, at its angle. -/
theorem toComplex_twiddle (n k : ℕ) :
    (twiddle n k : Cartesian ℝ).toComplex = Complex.exp (-2 * π * Complex.I * k / n) := by
  have hangle : (-2 * π * Complex.I * k / n : ℂ) =
      ((((0 : ℕ) : ℝ) - ((2 : ℕ) : ℝ) * π * (k : ℝ) / (n : ℝ) : ℝ) : ℂ) * Complex.I := by
    push_cast
    ring
  rw [hangle]
  apply Complex.ext
  · rw [Complex.exp_ofReal_mul_I_re]
    rfl
  · rw [Complex.exp_ofReal_mul_I_im]
    rfl

end Cartesian

end WaveNotebook
