import Mathlib.Algebra.BigOperators.Group.List.Basic
import Mathlib.Algebra.Order.Chebyshev
import Mathlib.Tactic.FieldSimp
import Mathlib.Tactic.Positivity
import WaveNotebook.Kernel.Statistic
import WaveNotebook.Proofs.Kernel.Exact

/-!
# Bounds of the statistics

In exact arithmetic a sum in lanes and blocks is the sum. The statistics are then quotients of sums
of powers: the root mean square and the crest factor of the samples, the kurtosis of what is left of
them without their mean. The inequality of Cauchy and Schwarz bounds these quotients from the one
side, and from the other side the sum of squares of non-negative numbers is at most the square of
their sum. Sums of powers are homogeneous, which makes the quotients invariant under scaling.
-/

open scoped Real

namespace WaveNotebook

/-! ## Sums in blocks -/

section

variable {α : Type} [AddCommMonoidWithOne α]

theorem foldl_add_eq_add_sum (x : α) (xs : List α) : xs.foldl (· + ·) x = x + xs.sum := by
  induction xs generalizing x with
  | nil => simp
  | cons y xs ih => rw [List.foldl_cons, ih, List.sum_cons, add_assoc]

theorem joinLanes_eq_sum (lanes : List α) : joinLanes lanes = lanes.sum := by
  unfold joinLanes
  split
  · simp only [List.sum_cons, List.sum_nil, add_zero, add_assoc]
  · exact sum_eq_sum lanes

/-- The lanes take up all entries but the last ones that fill no row of eight. -/
theorem sum_laneSums_add_sum_drop (lanes rest : List α) (hlanes : lanes.length = 8) :
    (laneSums lanes rest).sum + (rest.drop (rest.length - rest.length % 8)).sum =
      lanes.sum + rest.sum := by
  induction lanes, rest using laneSums.induct with
  | case1 lanes a b c d e f g h rest ih =>
    have hwidth : lanes.length = [a, b, c, d, e, f, g, h].length := hlanes
    have hcount : (a :: b :: c :: d :: e :: f :: g :: h :: rest).length -
        (a :: b :: c :: d :: e :: f :: g :: h :: rest).length % 8 =
          8 + (rest.length - rest.length % 8) := by
      simp only [List.length_cons]
      omega
    have hdrop : (a :: b :: c :: d :: e :: f :: g :: h :: rest).drop
        (8 + (rest.length - rest.length % 8)) = rest.drop (rest.length - rest.length % 8) := by
      rw [← List.drop_drop]
      rfl
    rw [laneSums, hcount, hdrop, ih (by rw [List.length_zipWith, ← hwidth, hlanes, min_self]),
      ← List.sum_add_sum_eq_sum_zipWith_of_length_eq _ _ hwidth, add_assoc, ← List.sum_append]
    rfl
  | case2 rest lanes hshort =>
    have hlength : rest.length < 8 := by
      by_contra hlong
      rcases rest with _ | ⟨a, _ | ⟨b, _ | ⟨c, _ | ⟨d, _ | ⟨e, _ | ⟨f, _ | ⟨g, _ | ⟨h, rest⟩⟩⟩⟩⟩⟩⟩⟩
      iterate 8 exact hlong (by simp)
      exact hshort a b c d e f g h rest rfl
    rw [laneSums, Nat.mod_eq_of_lt hlength, Nat.sub_self, List.drop_zero]
    exact hshort

theorem blockSum_eq_sum (xs : List α) : blockSum xs = xs.sum := by
  unfold blockSum
  split
  · exact sum_eq_sum xs
  · rename_i hlong
    have hdrop : xs.drop (xs.length - xs.length % 8) =
        (xs.drop 8).drop ((xs.drop 8).length - (xs.drop 8).length % 8) := by
      rw [List.drop_drop, List.length_drop]
      congr 1
      omega
    rw [foldl_add_eq_add_sum, joinLanes_eq_sum, hdrop,
      sum_laneSums_add_sum_drop _ _ (by simp; omega), List.sum_take_add_sum_drop]

theorem pairwiseSum_eq_sum (xs : List α) : pairwiseSum xs = xs.sum := by
  induction xs using pairwiseSum.induct with
  | case1 xs hshort => rw [pairwiseSum, if_pos hshort, blockSum_eq_sum]
  | case2 xs hlong half ihfront ihback =>
    rw [pairwiseSum, if_neg hlong]
    dsimp only
    rw [ihfront, ihback, List.sum_take_add_sum_drop]

end

theorem length_cast_pos {xs : List ℝ} (hne : xs ≠ []) : (0 : ℝ) < xs.length :=
  Nat.cast_pos.mpr (List.length_pos_of_ne_nil hne)

theorem mean_eq_sum_div (xs : List ℝ) : mean xs = xs.sum / xs.length := by
  rw [mean, pairwiseSum_eq_sum]

/-! ## Sums of powers -/

/-- The sum of the powers of the entries. -/
def powerSum (k : ℕ) (xs : List ℝ) : ℝ :=
  (xs.map (· ^ k)).sum

namespace powerSum

variable (k : ℕ) (xs : List ℝ)

theorem eq_sum_pow : powerSum k xs = ∑ i : Fin xs.length, xs[i] ^ k :=
  (Fin.sum_univ_fun_getElem xs (· ^ k)).symm

theorem nonneg_of_even (hk : Even k) : 0 ≤ powerSum k xs := by
  rw [eq_sum_pow]
  exact Finset.sum_nonneg fun i _ ↦ hk.pow_nonneg _

theorem map_mul (a : ℝ) : powerSum k (xs.map (a * ·)) = a ^ k * powerSum k xs := by
  unfold powerSum
  rw [List.map_map, ← List.sum_map_mul_left]
  exact congrArg List.sum (List.map_congr_left fun x _ ↦ mul_pow a x k)

theorem two_eq_zero_iff : powerSum 2 xs = 0 ↔ ∀ x ∈ xs, x = 0 := by
  rw [eq_sum_pow, Finset.sum_eq_zero_iff_of_nonneg fun i _ ↦ sq_nonneg _,
    List.forall_mem_iff_forall_getElem]
  simp [Fin.forall_iff]

theorem two_le {b : ℝ} (hb : ∀ x ∈ xs, |x| ≤ b) : powerSum 2 xs ≤ xs.length * b ^ 2 := by
  rw [eq_sum_pow]
  calc
    ∑ i : Fin xs.length, xs[i] ^ 2 ≤ ∑ _i : Fin xs.length, b ^ 2 :=
      Finset.sum_le_sum fun i _ ↦ sq_le_sq' (neg_le_of_abs_le (hb _ (List.getElem_mem _)))
        (le_of_abs_le (hb _ (List.getElem_mem _)))
    _ = xs.length * b ^ 2 := by simp

theorem sq_le_two {x : ℝ} (hx : x ∈ xs) : x ^ 2 ≤ powerSum 2 xs :=
  List.single_le_sum (List.forall_mem_map.mpr fun y _ ↦ sq_nonneg y) _ (List.mem_map_of_mem hx)

/-- The inequality of Cauchy and Schwarz for the squares. -/
theorem two_sq_le : powerSum 2 xs ^ 2 ≤ xs.length * powerSum 4 xs := by
  rw [eq_sum_pow, eq_sum_pow]
  calc
    (∑ i : Fin xs.length, xs[i] ^ 2) ^ 2 ≤
        (Finset.univ : Finset (Fin xs.length)).card * ∑ i : Fin xs.length, (xs[i] ^ 2) ^ 2 :=
      sq_sum_le_card_mul_sum_sq
    _ = xs.length * ∑ i : Fin xs.length, xs[i] ^ 4 := by
      simp only [Finset.card_univ, Fintype.card_fin, ← pow_mul]

theorem four_le : powerSum 4 xs ≤ powerSum 2 xs ^ 2 := by
  rw [eq_sum_pow, eq_sum_pow]
  calc
    ∑ i : Fin xs.length, xs[i] ^ 4 = ∑ i : Fin xs.length, (xs[i] ^ 2) ^ 2 := by
      simp only [← pow_mul]
    _ ≤ (∑ i : Fin xs.length, xs[i] ^ 2) ^ 2 :=
      Finset.sum_sq_le_sq_sum_of_nonneg fun i _ ↦ sq_nonneg _

end powerSum

namespace Statistic

/-! ## Root mean square, peak and crest factor -/

section

variable (xs : List ℝ)

theorem mean_square : mean (xs.map fun x ↦ x * x) = powerSum 2 xs / xs.length := by
  have hsquares : (xs.map fun x ↦ x * x) = xs.map (· ^ 2) :=
    List.map_congr_left fun x _ ↦ (sq x).symm
  rw [hsquares, mean_eq_sum_div, List.length_map, powerSum]

theorem rmsOf_eq_sqrt : rmsOf xs = √(powerSum 2 xs / xs.length) := by
  rw [rmsOf, mean_square]
  rfl

theorem rmsOf_nonneg : 0 ≤ rmsOf xs := by
  rw [rmsOf_eq_sqrt]
  exact Real.sqrt_nonneg _

theorem magnitude_eq_abs (x : ℝ) : magnitude x = |x| := by
  unfold magnitude
  rw [Nat.cast_zero]
  split
  · rename_i hneg
    exact (abs_of_neg hneg).symm
  · rename_i hpos
    exact (abs_of_nonneg (not_lt.mp hpos)).symm

theorem greater_eq_max (x y : ℝ) : greater x y = max x y := by
  unfold greater
  rw [beq_self_eq_true, Bool.not_true, Bool.or_false]
  by_cases h : x < y
  · rw [if_pos (decide_eq_true h), max_eq_right h.le]
  · rw [if_neg (mt of_decide_eq_true h), max_eq_left (not_lt.mp h)]

variable {xs}

/-- The peak is the greatest magnitude of an entry. -/
theorem isGreatest_peakOf (hne : xs ≠ []) : IsGreatest {y | ∃ x ∈ xs, |x| = y} (peakOf xs) := by
  have hmap : xs.map (|·|) ≠ [] := by rwa [ne_eq, List.map_eq_nil_iff]
  obtain ⟨hmem, hle⟩ := (List.max_eq_iff hmap).mp rfl
  obtain ⟨x, hx, hmax⟩ := List.mem_map.mp hmem
  have hpeak : peakOf xs = (xs.map (|·|)).max hmap := by
    unfold peakOf
    rw [funext₂ greater_eq_max, funext magnitude_eq_abs, Nat.cast_zero, List.foldl_max_eq_max hmap,
      ← hmax, max_eq_right (abs_nonneg x)]
  rw [hpeak]
  exact ⟨⟨x, hx, hmax⟩, fun _ ⟨y, hy, heq⟩ ↦ heq ▸ hle _ (List.mem_map_of_mem hy)⟩

theorem sqrt_length_mul_rmsOf (hne : xs ≠ []) : √xs.length * rmsOf xs = √(powerSum 2 xs) := by
  have hlength := length_cast_pos hne
  rw [rmsOf_eq_sqrt, ← Real.sqrt_mul hlength.le, mul_div_cancel₀ _ hlength.ne']

theorem rmsOf_le_peakOf (hne : xs ≠ []) : rmsOf xs ≤ peakOf xs := by
  have hlength := length_cast_pos hne
  obtain ⟨⟨x, hx, hpeak⟩, hgreatest⟩ := isGreatest_peakOf hne
  have hpos : 0 ≤ peakOf xs := hpeak ▸ abs_nonneg x
  have hsum : powerSum 2 xs ≤ xs.length * peakOf xs ^ 2 :=
    powerSum.two_le xs fun y hy ↦ hgreatest ⟨y, hy, rfl⟩
  rw [rmsOf_eq_sqrt, Real.sqrt_le_left hpos, div_le_iff₀ hlength, mul_comm]
  exact hsum

theorem peakOf_le_sqrt_mul_rmsOf (hne : xs ≠ []) : peakOf xs ≤ √xs.length * rmsOf xs := by
  obtain ⟨⟨x, hx, hpeak⟩, -⟩ := isGreatest_peakOf hne
  rw [sqrt_length_mul_rmsOf hne, ← hpeak, ← Real.sqrt_sq_eq_abs]
  exact Real.sqrt_le_sqrt (powerSum.sq_le_two xs hx)

theorem rmsOf_eq_zero_iff (hne : xs ≠ []) : rmsOf xs = 0 ↔ ∀ x ∈ xs, x = 0 := by
  have hlength := (length_cast_pos hne).ne'
  have hpos : 0 ≤ powerSum 2 xs / xs.length :=
    div_nonneg (powerSum.nonneg_of_even 2 xs even_two) (Nat.cast_nonneg _)
  rw [rmsOf_eq_sqrt, Real.sqrt_eq_zero hpos, div_eq_zero_iff, or_iff_left hlength,
    powerSum.two_eq_zero_iff]

theorem rmsOf_map_mul (a : ℝ) : rmsOf (xs.map (a * ·)) = |a| * rmsOf xs := by
  rw [rmsOf_eq_sqrt, rmsOf_eq_sqrt, powerSum.map_mul, List.length_map, mul_div_assoc,
    Real.sqrt_mul (sq_nonneg a), Real.sqrt_sq_eq_abs]

theorem peakOf_map_mul (hne : xs ≠ []) (a : ℝ) : peakOf (xs.map (a * ·)) = |a| * peakOf xs := by
  obtain ⟨⟨x, hx, hpeak⟩, hgreatest⟩ := isGreatest_peakOf hne
  refine (isGreatest_peakOf (by simpa using hne)).unique ⟨⟨a * x, ?_, ?_⟩, ?_⟩
  · exact List.mem_map_of_mem hx
  · rw [abs_mul, hpeak]
  · rintro _ ⟨_, hmem, rfl⟩
    obtain ⟨y, hy, rfl⟩ := List.mem_map.mp hmem
    rw [abs_mul]
    exact mul_le_mul_of_nonneg_left (hgreatest ⟨y, hy, rfl⟩) (abs_nonneg a)

theorem crestOf_eq (xs : List ℝ) :
    crestOf xs = if rmsOf xs = 0 then .error (.algorithm .zeroPower)
      else .ok (peakOf xs / rmsOf xs) := by
  unfold crestOf
  dsimp only
  rw [Nat.cast_zero]
  exact if_congr beq_iff_eq rfl rfl

/-- The crest factor of samples that are not all zero. -/
theorem exists_crestOf (hne : xs ≠ []) (h : ∃ x ∈ xs, x ≠ 0) :
    ∃ c, crestOf xs = .ok c ∧ 1 ≤ c ∧ c ≤ √xs.length ∧
      ∀ a, a ≠ 0 → crestOf (xs.map (a * ·)) = .ok c := by
  have hrms : rmsOf xs ≠ 0 := by
    obtain ⟨x, hx, hx0⟩ := h
    exact fun hzero ↦ hx0 ((rmsOf_eq_zero_iff hne).mp hzero x hx)
  have hpos : 0 < rmsOf xs := lt_of_le_of_ne (rmsOf_nonneg xs) hrms.symm
  refine ⟨peakOf xs / rmsOf xs, ?_, ?_, ?_, fun a ha ↦ ?_⟩
  · rw [crestOf_eq, if_neg hrms]
  · rw [one_le_div hpos]
    exact rmsOf_le_peakOf hne
  · rw [div_le_iff₀ hpos]
    exact peakOf_le_sqrt_mul_rmsOf hne
  · have habs : |a| ≠ 0 := abs_ne_zero.mpr ha
    rw [crestOf_eq, rmsOf_map_mul, if_neg (mul_ne_zero habs hrms), peakOf_map_mul hne,
      mul_div_mul_left _ _ habs]

end

/-! ## Kurtosis -/

section

/-- What is left of the entries without their mean. -/
noncomputable def centred (xs : List ℝ) : List ℝ :=
  xs.map (· - xs.sum / xs.length)

variable {xs : List ℝ}

theorem length_centred (xs : List ℝ) : (centred xs).length = xs.length :=
  List.length_map _

theorem mean_fourthPower (xs : List ℝ) :
    mean (xs.map Elementary.fourthPower) = powerSum 4 xs / xs.length := by
  rw [mean_eq_sum_div, List.length_map]
  rfl

theorem kurtosisOf_eq_div (xs : List ℝ) :
    kurtosisOf xs = if powerSum 2 (centred xs) / xs.length = 0 then
        .error (.algorithm .constantSignal)
      else .ok (powerSum 4 (centred xs) / xs.length /
        (powerSum 2 (centred xs) / xs.length * (powerSum 2 (centred xs) / xs.length))) := by
  have hcentred : xs.map (· - mean xs) = centred xs := by rw [mean_eq_sum_div, centred]
  unfold kurtosisOf
  dsimp only
  rw [hcentred, mean_square, mean_fourthPower, length_centred, Nat.cast_zero]
  generalize powerSum 2 (centred xs) / xs.length = variance
  by_cases hzero : variance = 0
  · rw [if_pos hzero, if_pos (beq_iff_eq.mpr hzero)]
  · -- no square is infinite, and only that of zero is zero
    have hsquare : ¬variance * variance = 0 := mul_self_ne_zero.mpr hzero
    have hfinite : ¬(isFinite variance && !isFinite (variance * variance)) = true :=
      Bool.false_ne_true
    rw [if_neg hzero, if_neg (mt beq_iff_eq.mp hzero), if_neg hfinite,
      if_neg (mt beq_iff_eq.mp hsquare)]

/-- The centred entries vanish exactly if all entries are the same. -/
theorem powerSum_centred_eq_zero_iff :
    powerSum 2 (centred xs) = 0 ↔ ∀ x ∈ xs, ∀ y ∈ xs, x = y := by
  rw [powerSum.two_eq_zero_iff]
  unfold centred
  rw [List.forall_mem_map]
  constructor
  · intro h x hx y hy
    rw [sub_eq_zero.mp (h x hx), sub_eq_zero.mp (h y hy)]
  · intro h x hx
    have hsum : xs.sum = xs.length * x := by
      rw [List.eq_replicate_of_mem fun y hy ↦ h y hy x hx, List.sum_replicate, nsmul_eq_mul,
        List.length_replicate]
    have hlength := length_cast_pos (List.ne_nil_of_mem hx)
    rw [hsum, mul_div_cancel_left₀ _ hlength.ne', sub_self]

theorem centred_map_affine (hne : xs ≠ []) (a b : ℝ) :
    centred (xs.map fun x ↦ a * x + b) = (centred xs).map (a * ·) := by
  have hlength := (length_cast_pos hne).ne'
  have hsum : (xs.map fun x ↦ a * x + b).sum = a * xs.sum + xs.length * b := by
    rw [List.sum_map_add, List.sum_map_mul_left, List.map_id', List.map_const', List.sum_replicate,
      nsmul_eq_mul]
  unfold centred
  rw [hsum, List.length_map, List.map_map, List.map_map]
  refine List.map_congr_left fun x _ ↦ ?_
  simp only [Function.comp_apply]
  field_simp
  ring

/-- The kurtosis of samples that are not all the same. -/
theorem exists_kurtosisOf (h : ∃ x ∈ xs, ∃ y ∈ xs, x ≠ y) :
    ∃ k, kurtosisOf xs = .ok k ∧ 1 ≤ k ∧ k ≤ xs.length ∧
      ∀ a b, a ≠ 0 → kurtosisOf (xs.map fun x ↦ a * x + b) = .ok k := by
  obtain ⟨x, hx, y, hy, hxy⟩ := h
  have hlength := length_cast_pos (List.ne_nil_of_mem hx)
  have hsecond : 0 < powerSum 2 (centred xs) :=
    lt_of_le_of_ne (powerSum.nonneg_of_even 2 _ even_two) fun hzero ↦
      hxy (powerSum_centred_eq_zero_iff.mp hzero.symm x hx y hy)
  have hvariance : powerSum 2 (centred xs) / xs.length ≠ 0 := (div_pos hsecond hlength).ne'
  have hschwarz := powerSum.two_sq_le (centred xs)
  have hfour := powerSum.four_le (centred xs)
  rw [length_centred] at hschwarz
  have hvalue : powerSum 4 (centred xs) / xs.length /
      (powerSum 2 (centred xs) / xs.length * (powerSum 2 (centred xs) / xs.length)) =
        xs.length * powerSum 4 (centred xs) / powerSum 2 (centred xs) ^ 2 := by
    field_simp
  refine ⟨xs.length * powerSum 4 (centred xs) / powerSum 2 (centred xs) ^ 2, ?_, ?_, ?_,
    fun a b ha ↦ ?_⟩
  · rw [kurtosisOf_eq_div, if_neg hvariance, hvalue]
  · rwa [one_le_div (pow_pos hsecond 2)]
  · rw [div_le_iff₀ (pow_pos hsecond 2)]
    exact mul_le_mul_of_nonneg_left hfour hlength.le
  · have hscaled : a ^ 2 * powerSum 2 (centred xs) / xs.length ≠ 0 :=
      (div_pos (mul_pos (sq_pos_of_ne_zero ha) hsecond) hlength).ne'
    rw [kurtosisOf_eq_div, centred_map_affine (List.ne_nil_of_mem hx), powerSum.map_mul,
      powerSum.map_mul, List.length_map, if_neg hscaled]
    congr 1
    field_simp

end

/-! ## Measurements -/

theorem measure_of_ne_nil {xs : List ℝ} (hne : xs ≠ []) (statistic : Statistic) :
    statistic.measure xs = match statistic with
      | rms => .ok (rmsOf xs)
      | peak => .ok (peakOf xs)
      | crest => crestOf xs
      | kurtosis => kurtosisOf xs :=
  if_neg (by simpa using hne)

theorem exists_crestOf_eq_error_iff {xs : List ℝ} (hne : xs ≠ []) :
    (∃ fault, crestOf xs = .error (.algorithm fault)) ↔ ∀ x ∈ xs, x = 0 := by
  rw [← rmsOf_eq_zero_iff hne, crestOf_eq]
  by_cases hzero : rmsOf xs = 0
  · simp [hzero]
  · simp [hzero]

theorem exists_kurtosisOf_eq_error_iff {xs : List ℝ} (hne : xs ≠ []) :
    (∃ fault, kurtosisOf xs = .error (.algorithm fault)) ↔ ∀ x ∈ xs, ∀ y ∈ xs, x = y := by
  have hlength := (length_cast_pos hne).ne'
  rw [← powerSum_centred_eq_zero_iff, kurtosisOf_eq_div]
  by_cases hzero : powerSum 2 (centred xs) = 0
  · simp [hzero]
  · simp [hzero, hlength]

/-- The root mean square of samples is at most their peak, which is at most the root of their number
times the root mean square. The quotient of the two and the kurtosis are between one and the root of
the number of samples and the number of samples, and they are the same for scaled samples, the
kurtosis for shifted ones too. They are undefined exactly for samples that are all zero, and for
samples that are all the same. -/
theorem measure_bounds {xs : List ℝ} (hne : xs ≠ []) :
    (∃ r p, rms.measure xs = .ok r ∧ peak.measure xs = .ok p ∧
        0 ≤ r ∧ r ≤ p ∧ p ≤ √xs.length * r) ∧
      ((∃ x ∈ xs, x ≠ 0) → ∃ c, crest.measure xs = .ok c ∧ 1 ≤ c ∧ c ≤ √xs.length ∧
        ∀ a, a ≠ 0 → crest.measure (xs.map (a * ·)) = .ok c) ∧
      ((∃ x ∈ xs, ∃ y ∈ xs, x ≠ y) → ∃ k, kurtosis.measure xs = .ok k ∧ 1 ≤ k ∧ k ≤ xs.length ∧
        ∀ a b, a ≠ 0 → kurtosis.measure (xs.map fun x ↦ a * x + b) = .ok k) ∧
      ((∃ fault, crest.measure xs = .error (.algorithm fault)) ↔ ∀ x ∈ xs, x = 0) ∧
      ((∃ fault, kurtosis.measure xs = .error (.algorithm fault)) ↔
        ∀ x ∈ xs, ∀ y ∈ xs, x = y) := by
  have hmap : ∀ f : ℝ → ℝ, xs.map f ≠ [] := fun f ↦ by rwa [ne_eq, List.map_eq_nil_iff]
  simp only [measure_of_ne_nil hne, measure_of_ne_nil (hmap _)]
  exact ⟨⟨_, _, rfl, rfl, rmsOf_nonneg xs, rmsOf_le_peakOf hne, peakOf_le_sqrt_mul_rmsOf hne⟩,
    exists_crestOf hne, exists_kurtosisOf, exists_crestOf_eq_error_iff hne,
    exists_kurtosisOf_eq_error_iff hne⟩

/-- A single spike, and the same one turned over, scaled and shifted. -/
theorem measure_bounds_spike :
    (∃ c, crest.measure ([0, 0, 3] : List ℝ) = .ok c ∧ 1 ≤ c ∧ c ≤ √3 ∧
      crest.measure ([0, 0, -6] : List ℝ) = .ok c) ∧
    (∃ k, kurtosis.measure ([0, 0, 3] : List ℝ) = .ok k ∧ 1 ≤ k ∧ k ≤ 3 ∧
      kurtosis.measure ([1, 1, -5] : List ℝ) = .ok k) ∧
    ∃ fault, crest.measure ([0, 0] : List ℝ) = .error (.algorithm fault) := by
  have hspike : ([0, 0, 3] : List ℝ) ≠ [] := List.cons_ne_nil _ _
  have hsilence : ([0, 0] : List ℝ) ≠ [] := List.cons_ne_nil _ _
  obtain ⟨-, hcrest, hkurtosis, -, -⟩ := measure_bounds hspike
  obtain ⟨-, -, -, hzero, -⟩ := measure_bounds hsilence
  obtain ⟨c, hc, hcleast, hcmost, hcscaled⟩ := hcrest ⟨3, by simp, by norm_num⟩
  obtain ⟨k, hk, hkleast, hkmost, hkaffine⟩ :=
    hkurtosis ⟨0, by simp, 3, by simp, by norm_num⟩
  refine ⟨⟨c, hc, hcleast, ?_, ?_⟩, ⟨k, hk, hkleast, ?_, ?_⟩, hzero.mpr (by simp)⟩
  · simpa using hcmost
  · rw [← hcscaled (-2) (by norm_num)]
    norm_num
  · simpa using hkmost
  · rw [← hkaffine (-2) 1 (by norm_num)]
    norm_num

end Statistic

end WaveNotebook
