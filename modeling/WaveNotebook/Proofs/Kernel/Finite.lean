import WaveNotebook.Proofs.Kernel.Statistic
import WaveNotebook.Proofs.Number.Range

/-!
# Statistics of doubles that are finite

A sum of squares has terms that are not negative, so that no rounding takes it below any of them: it
is finite or infinite, and never what is not a number. The root mean square is finite with the sum
of the squares. The peak is the magnitude of a sample, and a crest factor is too small to overflow,
since it is about a quotient of the peak by the root mean square. The same holds of a kurtosis,
as long as the two moments are finite of which it is the quotient.
-/

namespace WaveNotebook

/-! ## Related sums -/

section

variable {α β : Type} [NatCast α] [Add α] [NatCast β] [Add β] {R : α → β → Prop}
  (hzero : R ((0 : ℕ) : α) ((0 : ℕ) : β))
  (hadd : ∀ {a b c d}, R a c → R b d → R (a + b) (c + d))

include hadd

omit [NatCast α] [NatCast β] in
theorem foldl_add_related {xs : List α} {ys : List β} (h : List.Forall₂ R xs ys) {a : α} {b : β}
    (hab : R a b) : R (xs.foldl (· + ·) a) (ys.foldl (· + ·) b) := by
  induction h generalizing a b with
  | nil => exact hab
  | cons hx _ ih => exact ih (hadd hab hx)

omit [NatCast α] [NatCast β] in
theorem zipWith_add_related {xs xs' : List α} {ys ys' : List β} (h : List.Forall₂ R xs ys)
    (h' : List.Forall₂ R xs' ys') :
    List.Forall₂ R (List.zipWith (· + ·) xs xs') (List.zipWith (· + ·) ys ys') := by
  induction h generalizing xs' ys' with
  | nil => exact .nil
  | cons hx _ ih =>
    cases h' with
    | nil => exact .nil
    | cons hx' htail => exact .cons (hadd hx hx') (ih htail)

omit [NatCast α] [NatCast β] in
theorem laneSums_related {lanes rest : List α} {lanes' rest' : List β}
    (hlanes : List.Forall₂ R lanes lanes') (hrest : List.Forall₂ R rest rest') :
    List.Forall₂ R (laneSums lanes rest) (laneSums lanes' rest') := by
  induction lanes, rest using laneSums.induct generalizing lanes' rest' with
  | case1 lanes a b c d e f g h rest ih =>
    obtain _ | ⟨ha, _ | ⟨hb, _ | ⟨hc, _ | ⟨hd, _ | ⟨he, _ | ⟨hf, _ | ⟨hg, _ | ⟨hh, htail⟩⟩⟩⟩⟩⟩⟩⟩ :=
      hrest
    rw [laneSums, laneSums]
    refine ih (zipWith_add_related hadd hlanes ?_) htail
    exact .cons ha (.cons hb (.cons hc (.cons hd (.cons he (.cons hf (.cons hg (.cons hh .nil)))))))
  | case2 rest lanes hshort =>
    have hshort' : ∀ a b c d e f g h tail,
        rest' ≠ a :: b :: c :: d :: e :: f :: g :: h :: tail := by
      rintro a b c d e f g h tail rfl
      obtain _ | ⟨-, _ | ⟨-, _ | ⟨-, _ | ⟨-, _ | ⟨-, _ | ⟨-, _ | ⟨-, _ | ⟨-, htail⟩⟩⟩⟩⟩⟩⟩⟩ :=
        hrest
      exact hshort _ _ _ _ _ _ _ _ _ rfl
    rw [laneSums, laneSums]
    · exact hlanes
    · exact hshort'
    · exact hshort

include hzero

theorem sum_related {xs : List α} {ys : List β} (h : List.Forall₂ R xs ys) : R (sum xs) (sum ys) :=
  foldl_add_related hadd h hzero

theorem joinLanes_related {xs : List α} {ys : List β} (h : List.Forall₂ R xs ys) :
    R (joinLanes xs) (joinLanes ys) := by
  have hlength := h.length_eq
  unfold joinLanes
  split
  · obtain _ | ⟨ha, _ | ⟨hb, _ | ⟨hc, _ | ⟨hd, _ | ⟨he, _ | ⟨hf, _ | ⟨hg, _ | ⟨hh, _ | _⟩⟩⟩⟩⟩⟩⟩⟩ :=
      h
    exact hadd (hadd (hadd ha hb) (hadd hc hd)) (hadd (hadd he hf) (hadd hg hh))
  · rename_i hlanes
    split
    · obtain _ | ⟨ha, _ | ⟨hb, _ | ⟨hc, _ | ⟨hd, _ | ⟨he, _ | ⟨hf, _ | ⟨hg, _ | ⟨hh, _ | _⟩⟩⟩⟩⟩⟩⟩⟩ :=
        h
      exact absurd rfl (hlanes _ _ _ _ _ _ _ _)
    · exact sum_related hzero hadd h

theorem blockSum_related {xs : List α} {ys : List β} (h : List.Forall₂ R xs ys) :
    R (blockSum xs) (blockSum ys) := by
  unfold blockSum
  rw [← h.length_eq]
  split
  · exact sum_related hzero hadd h
  · exact foldl_add_related hadd (List.forall₂_drop _ h) (joinLanes_related hzero hadd
      (laneSums_related hadd (List.forall₂_take _ h) (List.forall₂_drop _ h)))

/-- A relation that addition keeps is kept by sums of lists. -/
theorem pairwiseSum_related {xs : List α} {ys : List β} (h : List.Forall₂ R xs ys) :
    R (pairwiseSum xs) (pairwiseSum ys) := by
  induction xs using pairwiseSum.induct generalizing ys with
  | case1 xs hshort =>
    rw [pairwiseSum, pairwiseSum, if_pos hshort, if_pos (h.length_eq ▸ hshort)]
    exact blockSum_related hzero hadd h
  | case2 xs hlong half ihfront =>
    rename_i ihback
    rw [pairwiseSum, pairwiseSum, if_neg hlong, if_neg (h.length_eq ▸ hlong), ← h.length_eq]
    exact hadd (ihfront (List.forall₂_take _ h)) (ihback (List.forall₂_drop _ h))

end

open Binary64

/-! ## Sums of doubles -/

section

variable {xs : List Float}

/-- What holds of doubles with weights, and is kept by addition, holds of a sum with the sum of the
weights. -/
theorem pairwiseSum_weighted (xs : List Float) (P : ℕ → Float → Prop) (hzero : P 0 (0 : ℕ))
    (hadd : ∀ {m n x y}, P m x → P n y → P (m + n) (x + y)) (weight : Float → ℕ)
    (h : ∀ x ∈ xs, P (weight x) x) : P (xs.map weight).sum (pairwiseSum xs) := by
  rw [← pairwiseSum_eq_sum]
  refine pairwiseSum_related hzero hadd (List.forall₂_map_left_iff.mpr ?_)
  exact List.forall₂_same.mpr h

/-- A finite sum has finite terms. -/
theorem isFinite_of_pairwiseSum (h : isFinite (pairwiseSum xs) = true) :
    ∀ x ∈ xs, isFinite x = true := by
  have hcount := pairwiseSum_weighted xs (fun n x ↦ isFinite x = true → n = 0)
    (fun _ ↦ rfl)
    (fun hx hy hsum ↦ by rw [hx (isFinite_of_add hsum).1, hy (isFinite_of_add hsum).2])
    (fun x ↦ if isFinite x = true then 0 else 1) (fun x _ hx ↦ if_pos hx) h
  intro x hx
  by_contra hinfinite
  have hzero := List.sum_eq_zero_iff.mp hcount _ (List.mem_map_of_mem hx)
  rw [if_neg hinfinite] at hzero
  exact absurd hzero (by decide)

theorem nonneg_pairwiseSum (h : ∀ x ∈ xs, Nonneg x) : Nonneg (pairwiseSum xs) :=
  pairwiseSum_weighted xs (fun _ x ↦ Nonneg x) (nonneg_ofNat 0) (fun hx hy ↦ hx.add hy)
    (fun _ ↦ 0) h

/-- No term is greater than the sum. -/
theorem units_le_pairwiseSum (h : ∀ x ∈ xs, Nonneg x) {t : Float} (ht : t ∈ xs) :
    units t ≤ units (pairwiseSum xs) := by
  have hcount := pairwiseSum_weighted xs
    (fun n x ↦ Nonneg x ∧ (n ≠ 0 → units t ≤ units x))
    ⟨nonneg_ofNat 0, fun hne ↦ absurd rfl hne⟩
    (fun {m n x y} hx hy ↦ ⟨hx.1.add hy.1, fun hne ↦ by
      obtain ⟨hlex, hley⟩ := hx.1.units_le_add hy.1
      by_cases hm : m = 0
      · exact (hy.2 (by omega)).trans hley
      · exact (hx.2 hm).trans hlex⟩)
    (fun x ↦ if units t ≤ units x then 1 else 0)
    (fun x hx ↦ ⟨h x hx, fun hne ↦ by
      by_contra hlt
      exact hne (if_neg hlt)⟩)
  refine hcount.2 fun hzero ↦ ?_
  have hone := List.sum_eq_zero_iff.mp hzero _ (List.mem_map_of_mem ht)
  rw [if_pos le_rfl] at hone
  exact absurd hone (by decide)

/-- A sum of terms below a power of two is at most so many times the power. -/
theorem units_pairwiseSum_le (h : ∀ x ∈ xs, Nonneg x) {j : ℕ} (hj : ∀ x ∈ xs, units x ≤ 2 ^ j)
    (hlength : xs.length ≤ 2 ^ 53) : units (pairwiseSum xs) ≤ xs.length * 2 ^ j := by
  have hcount := pairwiseSum_weighted xs
    (fun n x ↦ Nonneg x ∧ (n ≤ 2 ^ 53 → units x ≤ n * 2 ^ j))
    ⟨nonneg_ofNat 0, fun _ ↦ by
      rw [(show units ((0 : ℕ) : Float) = 0 * unitsPerOne from (ofNat_of_le (by decide)).2)]
      simp⟩
    (fun {m n x y} hx hy ↦ ⟨hx.1.add hy.1, fun hle ↦
      hx.1.units_add_le hy.1 hle (hx.2 (by omega)) (hy.2 (by omega))⟩)
    (fun _ ↦ 1) (fun x hx ↦ ⟨h x hx, fun _ ↦ by rw [Nat.one_mul]; exact hj x hx⟩)
  simpa using hcount.2 (by simpa using hlength)

end

namespace Statistic

variable {xs : List Float}

/-! ## Peak -/

theorem magnitude_eq {x : Float} (hx : isFinite x = true) :
    isFinite (magnitude x) = true ∧ units (magnitude x) = units x := by
  have hcode : code (-x) = code x := by
    rw [neg_eq hx]
    exact code_ofCode _ (code_lt hx).le
  unfold magnitude
  split
  · refine ⟨decide_eq_true ?_, congrArg unitsOfCode hcode⟩
    rw [hcode]
    exact code_lt hx
  · exact ⟨hx, rfl⟩

theorem foldl_greater_mem (xs : List Float) (x : Float) :
    xs.foldl greater x = x ∨ xs.foldl greater x ∈ xs := by
  induction xs generalizing x with
  | nil => exact .inl rfl
  | cons y xs ih =>
    have hone : greater x y = x ∨ greater x y = y := by
      unfold greater
      split
      · exact .inr rfl
      · exact .inl rfl
    rw [List.foldl_cons]
    obtain h | h := ih (greater x y)
    · rw [h]
      exact hone.imp_right fun heq ↦ List.mem_cons.mpr (.inl heq)
    · exact .inr (List.mem_cons_of_mem _ h)

/-- The peak is the magnitude of a sample, or zero. -/
theorem peakOf_cases (hxs : ∀ x ∈ xs, isFinite x = true) : isFinite (peakOf xs) = true ∧
    (units (peakOf xs) = 0 ∨ ∃ x ∈ xs, units (peakOf xs) = units x) := by
  unfold peakOf
  obtain h | h := foldl_greater_mem (xs.map magnitude) ((0 : ℕ) : Float)
  · obtain ⟨hfinite, hunits⟩ := ofNat_of_le (show 0 ≤ 2 ^ 53 by decide)
    rw [h]
    exact ⟨hfinite, .inl (hunits.trans (Nat.zero_mul _))⟩
  · obtain ⟨x, hx, heq⟩ := List.mem_map.mp h
    obtain ⟨hfinite, hunits⟩ := magnitude_eq (hxs x hx)
    rw [← heq]
    exact ⟨hfinite, .inr ⟨x, hx, hunits⟩⟩

/-! ## Root mean square and crest factor -/

theorem nonneg_mul_self {x : Float} (hx : isFinite x = true) : Nonneg (x * x) := by
  rw [mul_self_eq hx]
  exact nonneg_ofRatio _ _

theorem nonneg_squares (hxs : ∀ x ∈ xs, isFinite x = true) :
    ∀ y ∈ xs.map fun x ↦ x * x, Nonneg y :=
  List.forall_mem_map.mpr fun x hx ↦ nonneg_mul_self (hxs x hx)

theorem isFinite_rmsOf (hne : xs ≠ []) (hxs : ∀ x ∈ xs, isFinite x = true)
    (h : isFinite (pairwiseSum (xs.map fun x ↦ x * x)) = true) : isFinite (rmsOf xs) = true := by
  have hlength : 0 < (xs.map fun x ↦ x * x).length := by
    rw [List.length_map]
    exact List.length_pos_of_ne_nil hne
  obtain ⟨hnonneg, hfinite⟩ := (nonneg_pairwiseSum (nonneg_squares hxs)).isFinite_div h hlength
  exact hnonneg.isFinite_sqrt hfinite

/-- A mean square is at least the square of a sample over their number. -/
theorem two_pow_le_mean_square (hxs : ∀ x ∈ xs, isFinite x = true) (hlength : xs.length ≤ 2 ^ 53)
    {x : Float} (hx : x ∈ xs) {a k : ℕ} (ha : 2 ^ a ≤ units x) (hk : k + 53 + 1074 ≤ 2 * a)
    (hk' : k + 53 ≤ rangeExponent) : 2 ^ k ≤ units (mean (xs.map fun x ↦ x * x)) := by
  have hsquare : 2 ^ (k + 53) ≤ units (x * x) :=
    two_pow_le_mul_self_of_le (hxs x hx) hk' ha (by omega)
  have hsum := units_le_pairwiseSum (nonneg_squares hxs)
    (List.mem_map_of_mem (f := fun x ↦ x * x) hx)
  have hcount : 0 < xs.length := List.length_pos_of_mem hx
  unfold mean
  rw [List.length_map]
  refine (nonneg_pairwiseSum (nonneg_squares hxs)).two_pow_le_div hcount hlength (by omega) ?_
  calc 2 ^ k * xs.length
    _ ≤ 2 ^ k * 2 ^ 53 := Nat.mul_le_mul_left _ hlength
    _ ≤ 2 ^ (k + 53) := two_pow_mul_le le_rfl
    _ ≤ units (pairwiseSum (xs.map fun x ↦ x * x)) := hsquare.trans hsum

theorem nonneg_mean_square (hne : xs ≠ []) (hxs : ∀ x ∈ xs, isFinite x = true)
    (hlength : xs.length ≤ 2 ^ 53) : Nonneg (mean (xs.map fun x ↦ x * x)) := by
  unfold mean
  rw [List.length_map]
  exact (nonneg_pairwiseSum (nonneg_squares hxs)).div (List.length_pos_of_ne_nil hne) hlength

theorem units_ne_zero_of_beq {x : Float} (h : ¬(x == ((0 : ℕ) : Float)) = true) : units x ≠ 0 := by
  have hzero : units ((0 : ℕ) : Float) = 0 :=
    (ofNat_of_le (show 0 ≤ 2 ^ 53 by decide)).2.trans (Nat.zero_mul _)
  exact fun hx ↦ h (beq_of_code_eq_zero (unitsOfCode_eq_zero_iff.mp hx)
    (unitsOfCode_eq_zero_iff.mp hzero))

theorem mean_square_ne_zero (hrms : units (rmsOf xs) ≠ 0) :
    units (mean (xs.map fun x ↦ x * x)) ≠ 0 := by
  have hrange : rangeExponent = 2098 := rfl
  intro hzero
  have hfinite : isFinite (mean (xs.map fun x ↦ x * x)) = true :=
    isFinite_of_units_le (k := 0) (by omega) (by omega)
  refine hrms ?_
  change units (mean (xs.map fun x ↦ x * x)).sqrt = 0
  rw [sqrt_of_units_eq_zero hfinite hzero, units, code_ofCode_zero]
  rfl

/-- A quotient by a root mean square that is not zero does not overflow. -/
theorem isFinite_crestOf (hne : xs ≠ []) (hxs : ∀ x ∈ xs, isFinite x = true)
    (hlength : xs.length ≤ 2 ^ 53) {c : Float} (h : crestOf xs = .ok c) : isFinite c = true := by
  unfold crestOf at h
  dsimp only at h
  split at h
  · cases h
  · rename_i hrms
    cases h
    have hrange : rangeExponent = 2098 := rfl
    obtain ⟨hfinite, hpeak⟩ := peakOf_cases hxs
    have hmean := nonneg_mean_square hne hxs hlength
    have hpos := Nat.pos_of_ne_zero (mean_square_ne_zero (units_ne_zero_of_beq hrms))
    -- a small peak over any root, or a great one over a root that is great as well
    obtain hsmall | hlarge := le_or_gt (units (peakOf xs)) (2 ^ 1554)
    · have hroot : 2 ^ 537 ≤ units (rmsOf xs) :=
        hmean.two_pow_le_sqrt_of_le (b := 0) (by omega) hpos (by omega)
      exact hmean.sqrt.isFinite_div_of_le hfinite hsmall hroot (by omega)
    · obtain hzero | ⟨x, hx, hunits⟩ := hpeak
      · exact absurd (hzero ▸ hlarge) (Nat.not_lt_zero _)
      have hsquare := two_pow_le_mean_square hxs hlength hx (hunits ▸ hlarge.le) (k := 1981)
        (by omega) (by omega)
      have hroot : 2 ^ 1527 ≤ units (rmsOf xs) :=
        hmean.two_pow_le_sqrt_of_le (by omega) hsquare (by omega)
      exact hmean.sqrt.isFinite_div_of_le hfinite (units_le_two_pow (code_lt hfinite).le) hroot
        (Nat.add_lt_add_left (by decide) _)

/-! ## Kurtosis -/

/-- What is left of doubles without their mean. -/
def deviations (xs : List Float) : List Float :=
  xs.map (· - mean xs)

def variance (xs : List Float) : Float :=
  mean ((deviations xs).map fun c ↦ c * c)

def fourthMoment (xs : List Float) : Float :=
  mean ((deviations xs).map Elementary.fourthPower)

theorem isFinite_of_mean {ys : List Float} (h : isFinite (mean ys) = true) :
    ∀ y ∈ ys, isFinite y = true :=
  isFinite_of_pairwiseSum (isFinite_of_div h)

theorem isFinite_of_mem_deviations (hvariance : isFinite (variance xs) = true) :
    ∀ c ∈ deviations xs, isFinite c = true :=
  fun _ hc ↦ (isFinite_of_mul (isFinite_of_mean hvariance _ (List.mem_map_of_mem hc))).1

/-- A mean of fourth powers is at most the fourth power of a bound. -/
theorem fourthMoment_le {cs : List Float} (hne : cs ≠ []) (hcs : ∀ c ∈ cs, isFinite c = true)
    (hlength : cs.length ≤ 2 ^ 53)
    (hfinite : isFinite (mean (cs.map Elementary.fourthPower)) = true) {a k : ℕ}
    (ha : ∀ c ∈ cs, units c ≤ 2 ^ a) (hk : 4 * a ≤ k + 3222) :
    units (mean (cs.map Elementary.fourthPower)) ≤ 2 ^ k := by
  obtain ⟨p, hp, hone⟩ := exists_unitsPerOne
  have hpower : ∀ y ∈ cs.map Elementary.fourthPower, Nonneg y ∧ units y ≤ 2 ^ k := by
    refine List.forall_mem_map.mpr fun c hc ↦ ⟨?_, fourthPower_le (hcs c hc) ?_⟩
    · rw [show Elementary.fourthPower c = fourthPower c from rfl, fourthPower_eq (hcs c hc)]
      exact nonneg_ofRatio _ _
    · calc units c ^ 4
        _ ≤ (2 ^ a) ^ 4 := Nat.pow_le_pow_left (ha c hc) 4
        _ = 2 ^ (a * 4) := (pow_mul 2 a 4).symm
        _ ≤ 2 ^ k * 2 ^ (p * 3) := le_two_pow_mul (by omega)
        _ = 2 ^ k * unitsPerOne ^ 3 := by rw [hone, pow_mul]
  have hcount : (cs.map Elementary.fourthPower).length = cs.length := List.length_map _
  refine div_ofNat_le (isFinite_of_div hfinite) ?_ ?_ ?_
  · rw [hcount]
    exact List.length_pos_of_ne_nil hne
  · rwa [hcount]
  · exact units_pairwiseSum_le (fun y hy ↦ (hpower y hy).1) (fun y hy ↦ (hpower y hy).2)
      (hcount ▸ hlength)

theorem kurtosisOf_eq_ok {k : Float} (h : kurtosisOf xs = .ok k) :
    units (variance xs * variance xs) ≠ 0 ∧
      k = fourthMoment xs / (variance xs * variance xs) := by
  have hvalue : kurtosisOf xs =
      if variance xs == ((0 : ℕ) : Float) then .error (.algorithm .constantSignal)
      else if WaveNotebook.isFinite (variance xs) &&
          !WaveNotebook.isFinite (variance xs * variance xs) then .error (.numeric .hugeSquare)
      else if variance xs * variance xs == ((0 : ℕ) : Float) then .error (.numeric .zeroDivision)
      else .ok (fourthMoment xs / (variance xs * variance xs)) := rfl
  rw [hvalue] at h
  split at h
  · cases h
  split at h
  · cases h
  split at h
  · cases h
  rename_i hsquare
  cases h
  exact ⟨units_ne_zero_of_beq hsquare, rfl⟩

/-- The square of a variance is at least a power of two if a deviation is. -/
theorem two_pow_le_square_variance (hlength : xs.length ≤ 2 ^ 53)
    (hvariance : isFinite (variance xs) = true) {c : Float} (hc : c ∈ deviations xs)
    {a b k : ℕ} (ha : 2 ^ a ≤ units c) (hb : b + 53 + 1074 ≤ 2 * a)
    (hb' : b + 53 ≤ rangeExponent) (hk : k + 1074 ≤ 2 * b) (hk' : k ≤ rangeExponent) :
    2 ^ k ≤ units (variance xs * variance xs) := by
  have hcount : (deviations xs).length = xs.length := List.length_map _
  have hle := two_pow_le_mean_square (isFinite_of_mem_deviations hvariance) (hcount ▸ hlength) hc
    ha hb hb'
  exact two_pow_le_mul_self_of_le hvariance hk' hle hk

theorem isFinite_kurtosisOf (hne : xs ≠ []) (hlength : xs.length ≤ 2 ^ 53)
    (hvariance : isFinite (variance xs) = true) (hfourth : isFinite (fourthMoment xs) = true)
    {k : Float} (h : kurtosisOf xs = .ok k) : isFinite k = true := by
  obtain ⟨hsquare, rfl⟩ := kurtosisOf_eq_ok h
  have hrange : rangeExponent = 2098 := rfl
  have hcount : (deviations xs).length = xs.length := List.length_map _
  have hne' : deviations xs ≠ [] := fun hnil ↦ hne (List.map_eq_nil_iff.mp hnil)
  have hcs := isFinite_of_mem_deviations hvariance
  have hnonneg := nonneg_mul_self hvariance
  -- small deviations, moderate ones and great ones
  by_cases hsmall : ∀ c ∈ deviations xs, units c ≤ 2 ^ 1060
  · have hle := fourthMoment_le hne' hcs (hcount ▸ hlength) hfourth hsmall (k := 1018) (by omega)
    exact hnonneg.isFinite_div_of_le hfourth hle (b := 0) (Nat.pos_of_ne_zero hsquare) (by omega)
  simp only [not_forall, not_le] at hsmall
  obtain ⟨c, hc, hlarge⟩ := hsmall
  by_cases hmoderate : ∀ c ∈ deviations xs, units c ≤ 2 ^ 1274
  · have hle := fourthMoment_le hne' hcs (hcount ▸ hlength) hfourth hmoderate (k := 1874)
      (by omega)
    have hge := two_pow_le_square_variance hlength hvariance hc hlarge.le (b := 993) (k := 912)
      (by omega) (by omega) (by omega) (by omega)
    exact hnonneg.isFinite_div_of_le hfourth hle hge (by omega)
  simp only [not_forall, not_le] at hmoderate
  obtain ⟨c, hc, hlarge⟩ := hmoderate
  have hge := two_pow_le_square_variance hlength hvariance hc hlarge.le (b := 1421) (k := 1768)
    (by omega) (by omega) (by omega) (by omega)
  have hle := units_le_two_pow (code_lt hfourth).le
  exact hnonneg.isFinite_div_of_le hfourth hle hge (Nat.add_lt_add_left (by decide) _)

/-! ## Measurements -/

/-- The samples that take a statistic out of the finite numbers, since the sum of their squares
overflows, or a moment of what is left of them without their mean. -/
def Overflows : Statistic → List Float → Prop
  | rms, xs => isFinite (pairwiseSum (xs.map fun x ↦ x * x)) = false
  | peak, _ | crest, _ => False
  | kurtosis, xs => isFinite (variance xs) = false ∨ isFinite (fourthMoment xs) = false

/-- A statistic of finite samples is finite, or the samples overflow it. -/
theorem isFinite_measure (hxs : ∀ x ∈ xs, isFinite x = true) (hlength : xs.length ≤ 2 ^ 53)
    {statistic : Statistic} {x : Float} (h : statistic.measure xs = .ok x) :
    isFinite x = true ∨ statistic.Overflows xs := by
  refine or_iff_not_imp_right.mpr fun hin ↦ ?_
  unfold measure at h
  split at h
  · cases h
  rename_i hempty
  have hne : xs ≠ [] := fun hnil ↦ hempty (hnil ▸ rfl)
  cases statistic with
  | rms =>
    cases h
    exact isFinite_rmsOf hne hxs (Bool.not_eq_false _ ▸ hin)
  | peak =>
    cases h
    exact (peakOf_cases hxs).1
  | crest => exact isFinite_crestOf hne hxs hlength h
  | kurtosis =>
    simp only [Overflows, not_or, Bool.not_eq_false] at hin
    exact isFinite_kurtosisOf hne hlength hin.1 hin.2 h

end Statistic

end WaveNotebook
