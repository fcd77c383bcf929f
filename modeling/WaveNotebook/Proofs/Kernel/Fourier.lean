import WaveNotebook.Proofs.Kernel.Exact

/-!
# The radix-2 transform is the discrete Fourier transform

A value of the discrete Fourier transform is the value of a polynomial at a root of unity, where
the coefficients are the entries of the list. The entries at even and at odd places are the
coefficients of two polynomials in the square of the point, and the squares of the points of `2n`
entries are the points of `n` entries, each of them reached twice with opposite signs. That is
what a butterfly computes, over any commutative ring whose turns behave so.
-/

open scoped Real

namespace WaveNotebook

namespace Fourier

/-! ## Lengths -/

theorem isPowerOfTwo_iff (n : ℤ) : isPowerOfTwo n = true ↔ ∃ p : ℕ, n = 2 ^ p := by
  unfold isPowerOfTwo
  rw [Bool.and_eq_true, decide_eq_true_eq, beq_iff_eq]
  constructor
  · rintro ⟨hpos, hbits⟩
    obtain ⟨p, hp⟩ := (Nat.and_sub_one_eq_zero_iff_isPowerOfTwo (by omega)).mp hbits
    refine ⟨p, ?_⟩
    rw [← Int.toNat_of_nonneg hpos.le, hp]
    norm_cast
  · rintro ⟨p, rfl⟩
    have hnat : ((2 : ℤ) ^ p).toNat = 2 ^ p := by
      rw [← Int.toNat_natCast (2 ^ p)]
      norm_cast
    refine ⟨by positivity, ?_⟩
    rw [hnat]
    exact (Nat.and_sub_one_eq_zero_iff_isPowerOfTwo (by positivity)).mpr ⟨p, rfl⟩

theorem transform_eq_ok_iff {β : Type} [Add β] [Sub β] [Mul β] (twiddle : ℕ → ℕ → β)
    (xs ys : List β) :
    transform twiddle xs = .ok ys ↔ (∃ p, xs.length = 2 ^ p) ∧ radix2 twiddle xs = ys := by
  have hlength : isPowerOfTwo xs.length = true ↔ ∃ p, xs.length = 2 ^ p := by
    rw [isPowerOfTwo_iff]
    norm_cast
  unfold transform
  split
  · rename_i hpower
    simp [hlength.mp hpower]
  · rename_i hpower
    simp only [reduceCtorEq, false_iff]
    exact fun h ↦ hpower (hlength.mpr h.1)

/-! ## The recursion -/

section

variable {β : Type} [Add β] [Sub β] [Mul β] (twiddle : ℕ → ℕ → β) {xs : List β}

theorem radix2_of_length_le_one (h : xs.length ≤ 1) : radix2 twiddle xs = xs := by
  rw [radix2, if_pos h]

theorem radix2_of_one_lt_length (h : 1 < xs.length) :
    radix2 twiddle xs =
      butterfly twiddle xs.length (radix2 twiddle (evens xs)) (radix2 twiddle (odds xs)) := by
  rw [radix2, if_neg (by omega)]

end

/-! ## Maps -/

section

variable {β γ : Type} (f : β → γ)

theorem map_evens (xs : List β) : (evens xs).map f = evens (xs.map f) := by
  induction xs using evens.induct with
  | case1 => rfl
  | case2 x => rfl
  | case3 x y xs ih => simp only [evens, List.map_cons, ih]

theorem map_odds (xs : List β) : (odds xs).map f = odds (xs.map f) := by
  induction xs using odds.induct with
  | case1 => rfl
  | case2 x => rfl
  | case3 x y xs ih => simp only [odds, List.map_cons, ih]

theorem map_zipWith_of_hom {op : β → β → β} {op' : γ → γ → γ}
    (hop : ∀ x y, f (op x y) = op' (f x) (f y)) (xs ys : List β) :
    (List.zipWith op xs ys).map f = List.zipWith op' (xs.map f) (ys.map f) := by
  simp only [List.map_zipWith, List.zipWith_map, hop]

variable [Add β] [Sub β] [Mul β] [Add γ] [Sub γ] [Mul γ]
  (hadd : ∀ x y, f (x + y) = f x + f y) (hsub : ∀ x y, f (x - y) = f x - f y)
  (hmul : ∀ x y, f (x * y) = f x * f y)

include hadd hsub hmul

theorem map_butterfly (twiddle : ℕ → ℕ → β) (n : ℕ) (even odd : List β) :
    (butterfly twiddle n even odd).map f =
      butterfly (fun n k ↦ f (twiddle n k)) n (even.map f) (odd.map f) := by
  simp only [butterfly, List.map_append, map_zipWith_of_hom f hadd, map_zipWith_of_hom f hsub,
    map_zipWith_of_hom f hmul, List.map_map, Function.comp_def]

/-- A map that respects the operations respects the transform. -/
theorem map_radix2 (twiddle : ℕ → ℕ → β) (xs : List β) :
    (radix2 twiddle xs).map f = radix2 (fun n k ↦ f (twiddle n k)) (xs.map f) := by
  induction xs using radix2.induct with
  | case1 xs hshort =>
    rw [radix2_of_length_le_one _ hshort, radix2_of_length_le_one _ (by rwa [List.length_map])]
  | case2 xs hlong iheven ihodd =>
    have hmap : 1 < (xs.map f).length := by
      rw [List.length_map]
      omega
    rw [radix2_of_one_lt_length _ (by omega), map_butterfly f hadd hsub hmul, iheven, ihodd,
      radix2_of_one_lt_length _ hmap, map_evens, map_odds, List.length_map]

end

/-! ## Polynomials -/

section

variable {R : Type} [CommRing R]

/-- The value at a point of the polynomial with the given coefficients, the lowest one first. -/
def evaluate (z : R) : List R → R
  | [] => 0
  | x :: xs => x + z * evaluate z xs

theorem evaluate_map {β : Type} (f : β → R) (z : R) (xs : List β) :
    evaluate z (xs.map f) = ∑ j : Fin xs.length, f xs[j] * z ^ (j : ℕ) := by
  induction xs with
  | nil => rfl
  | cons x xs ih =>
    refine Eq.trans ?_ (Fin.sum_univ_succ (n := xs.length) _).symm
    rw [List.map_cons, evaluate, ih, Finset.mul_sum]
    congr 1
    · simp
    · refine Finset.sum_congr rfl fun j _ ↦ ?_
      simp only [Fin.val_succ, pow_succ, Fin.getElem_fin, List.getElem_cons_succ]
      ring

theorem evaluate_eq_evens_add_odds (z : R) (xs : List R) :
    evaluate z xs = evaluate (z * z) (evens xs) + z * evaluate (z * z) (odds xs) := by
  induction xs using evens.induct with
  | case1 => simp [evens, odds, evaluate]
  | case2 x => simp [evens, odds, evaluate]
  | case3 x y xs ih =>
    simp only [evens, odds, evaluate, ih]
    ring

/-! ## The butterfly -/

/-- Points on which the transform evaluates: those of `2n` entries are square roots of those of
`n` entries, and half a turn changes the sign. -/
structure Turns (w : ℕ → ℕ → R) : Prop where
  square : ∀ n k, w (2 * n) k * w (2 * n) k = w n k
  half : ∀ n k, 0 < n → w (2 * n) (n + k) = -w (2 * n) k

/-- The two halves of the result of a butterfly on values at even and at odd places. -/
theorem butterfly_map_range (w : ℕ → ℕ → R) (n : ℕ) (f g : ℕ → R) :
    butterfly w (2 * n) ((List.range n).map f) ((List.range n).map g) =
      (List.range n).map (fun k ↦ f k + w (2 * n) k * g k) ++
        (List.range n).map (fun k ↦ f k - w (2 * n) k * g k) := by
  simp only [butterfly, Nat.mul_div_cancel_left n Nat.two_pos, List.zipWith_map, List.zipWith_self]

/-- The transform evaluates the polynomial of its input at every point. -/
theorem radix2_eq_map_evaluate {w : ℕ → ℕ → R} (hw : Turns w) {p : ℕ} {xs : List R}
    (hlength : xs.length = 2 ^ p) :
    radix2 w xs = (List.range xs.length).map fun k ↦ evaluate (w xs.length k) xs := by
  induction p generalizing xs with
  | zero =>
    obtain ⟨x, rfl⟩ := List.length_eq_one_iff.mp hlength
    rw [radix2_of_length_le_one _ (by simp)]
    simp [evaluate]
  | succ p ih =>
    have hpos : 0 < 2 ^ p := by positivity
    have hdouble : (2 : ℕ) ^ (p + 1) = 2 * 2 ^ p := pow_succ' 2 p
    have heven : (evens xs).length = 2 ^ p := by rw [length_evens]; omega
    have hodd : (odds xs).length = 2 ^ p := by rw [length_odds]; omega
    rw [radix2_of_one_lt_length _ (by omega), ih heven, ih hodd, heven, hodd, hlength, hdouble,
      butterfly_map_range, two_mul (2 ^ p), List.range_add, List.map_append, List.map_map,
      ← two_mul]
    congr 1
    · refine List.map_congr_left fun k _ ↦ ?_
      rw [evaluate_eq_evens_add_odds _ xs, hw.square]
    · refine List.map_congr_left fun k _ ↦ ?_
      rw [Function.comp_apply, evaluate_eq_evens_add_odds _ xs, hw.half _ _ hpos, neg_mul_neg,
        hw.square, neg_mul, sub_eq_add_neg]

end

/-! ## Complex numbers -/

theorem turns_exp : Turns fun n k ↦ Complex.exp (-2 * π * Complex.I * k / n) where
  square n k := by
    rw [← Complex.exp_add]
    congr 1
    push_cast
    ring
  half n k hn := by
    have hn : (n : ℂ) ≠ 0 := by exact_mod_cast hn.ne'
    have hturn : -2 * π * Complex.I * ((n + k : ℕ) : ℂ) / ((2 * n : ℕ) : ℂ) =
        -2 * π * Complex.I * (k : ℂ) / ((2 * n : ℕ) : ℂ) - π * Complex.I := by
      push_cast
      field_simp
      ring
    rw [hturn, Complex.exp_sub_pi_mul_I]

/-- The transform of complex numbers, by the frequencies. -/
theorem map_toComplex_radix2 {p : ℕ} {xs : List (Cartesian ℝ)} (hlength : xs.length = 2 ^ p) :
    (radix2 Cartesian.twiddle xs).map Cartesian.toComplex =
      (List.range xs.length).map fun k : ℕ ↦
        evaluate (Complex.exp (-2 * π * Complex.I * k / xs.length))
          (xs.map Cartesian.toComplex) := by
  have hmap : (xs.map Cartesian.toComplex).length = 2 ^ p := by rwa [List.length_map]
  rw [map_radix2 Cartesian.toComplex Cartesian.toComplex_add Cartesian.toComplex_sub
    Cartesian.toComplex_mul]
  simp only [Cartesian.toComplex_twiddle]
  rw [radix2_eq_map_evaluate turns_exp hmap, List.length_map]

/-- The transform accepts the lists whose length is a power of two, keeps the length, and yields
at each frequency the sum of the entries, each of them turned as often as its place and the
frequency say. -/
theorem spectrum_eq_sum_exp (xs : List (Cartesian ℝ)) :
    ((∃ ys, spectrum xs = .ok ys) ↔ ∃ p, xs.length = 2 ^ p) ∧
      ∀ ys, spectrum xs = .ok ys → ys.length = xs.length ∧
        ∀ (k : ℕ) (_ : k < ys.length), ys[k].toComplex = ∑ j : Fin xs.length,
          xs[j].toComplex * Complex.exp (-2 * π * Complex.I * j * k / xs.length) := by
  constructor
  · simp only [spectrum, transform_eq_ok_iff, exists_and_left, exists_eq', and_true]
  · intro ys hys
    obtain ⟨⟨p, hlength⟩, rfl⟩ := (transform_eq_ok_iff _ _ _).mp hys
    have hmap := map_toComplex_radix2 hlength
    have hsize : (radix2 Cartesian.twiddle xs).length = xs.length := by
      simpa using congrArg List.length hmap
    refine ⟨hsize, fun k hk ↦ ?_⟩
    have hvalue : (radix2 Cartesian.twiddle xs)[k].toComplex =
        evaluate (Complex.exp (-2 * π * Complex.I * k / xs.length))
          (xs.map Cartesian.toComplex) := by
      have hget := congrArg (·[k]?) hmap
      rwa [List.getElem?_map, List.getElem?_eq_getElem hk, List.getElem?_map,
        List.getElem?_range (by omega), Option.map_some, Option.map_some, Option.some_inj] at hget
    rw [hvalue, evaluate_map]
    refine Finset.sum_congr rfl fun j _ ↦ ?_
    rw [← Complex.exp_nat_mul]
    congr 2
    ring

end Fourier

end WaveNotebook
