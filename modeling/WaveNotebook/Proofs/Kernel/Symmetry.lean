import WaveNotebook.Proofs.Kernel.Envelope
import WaveNotebook.Proofs.Kernel.Exact
import WaveNotebook.Proofs.Kernel.Sifting

/-!
# Envelopes of reversed and of negated signals

Whether a value is an extremum depends on the two values beside it in the same way, so that the
extrema of a reversed signal are at the mirrored places; and when the signs change, the maxima
become minima. Distances stay the same under reversal, and a weighted mean commutes with a change of
signs. In exact arithmetic both carry over to envelopes and to the mean of the two of them.
-/

namespace WaveNotebook

/-- The kind of the same extrema when the signs have changed. -/
def Extremum.opposite : Extremum → Extremum
  | max => min
  | min => max

def Shortfall.opposite (s : Shortfall) : Shortfall :=
  ⟨s.kind.opposite, s.found⟩

namespace Sifting

variable {α : Type} [Field α] [LinearOrder α] {kind : Extremum} {xs ys : List α} {p : ℕ}

/-! ## Reversal -/

theorem isExtremum_reverse (hp : p < xs.length) :
    IsExtremum kind xs.reverse p ↔ IsExtremum kind xs (xs.length - 1 - p) := by
  unfold IsExtremum
  rw [List.length_reverse]
  by_cases hinner : 0 < p ∧ p + 1 < xs.length
  · obtain ⟨hpos, hlast⟩ := hinner
    rw [List.getD_reverse p hp, List.getD_reverse (p - 1) (by omega),
      List.getD_reverse (p + 1) hlast,
      show xs.length - 1 - (p - 1) = xs.length - 1 - p + 1 by omega,
      show xs.length - 1 - (p + 1) = xs.length - 1 - p - 1 by omega]
    have hpos' : 0 < xs.length - 1 - p := by omega
    have hlast' : xs.length - 1 - p + 1 < xs.length := by omega
    cases kind with
    | max => simp only [hpos, hlast, hpos', hlast', true_and, and_comm]
    | min => simp only [hpos, hlast, hpos', hlast', true_and, and_comm]
  · exact iff_of_false (fun h ↦ hinner ⟨h.1, h.2.1⟩) fun h ↦ hinner (by omega)

theorem mem_extremumPlaces_reverse (hp : p < xs.length) :
    p ∈ extremumPlaces kind xs.reverse ↔ xs.length - 1 - p ∈ extremumPlaces kind xs := by
  have hmirror : xs.length - 1 - p < xs.length := by omega
  simp only [extremumPlaces, Finset.mem_filter, Finset.mem_range, List.length_reverse, hp, hmirror,
    true_and, isExtremum_reverse hp]

theorem lt_length_of_mem_extremumPlaces (h : p ∈ extremumPlaces kind xs) : p < xs.length :=
  Finset.mem_range.mp (Finset.mem_filter.mp h).1

/-- A sum over the extrema of a reversed signal runs over the mirrored places. -/
theorem sum_extremumPlaces_reverse {β : Type} [AddCommMonoid β] (f : ℕ → β) :
    ∑ i ∈ extremumPlaces kind xs.reverse, f i =
      ∑ i ∈ extremumPlaces kind xs, f (xs.length - 1 - i) := by
  have hlt : ∀ i ∈ extremumPlaces kind xs.reverse, i < xs.length := fun i hi ↦
    xs.length_reverse ▸ lt_length_of_mem_extremumPlaces hi
  refine Finset.sum_nbij' (xs.length - 1 - ·) (xs.length - 1 - ·) (fun i hi ↦ ?_) (fun i hi ↦ ?_)
    (fun i hi ↦ ?_) (fun i hi ↦ ?_) (fun i hi ↦ ?_)
  · exact (mem_extremumPlaces_reverse (hlt i hi)).mp hi
  · have hi' := lt_length_of_mem_extremumPlaces hi
    rwa [mem_extremumPlaces_reverse (by omega),
      show xs.length - 1 - (xs.length - 1 - i) = i by omega]
  · have hi' := hlt i hi
    omega
  · have hi' := lt_length_of_mem_extremumPlaces hi
    omega
  · have hi' := hlt i hi
    rw [show xs.length - 1 - (xs.length - 1 - i) = i by omega]

theorem card_extremumPlaces_reverse :
    (extremumPlaces kind xs.reverse).card = (extremumPlaces kind xs).card := by
  rw [Finset.card_eq_sum_ones, Finset.card_eq_sum_ones, sum_extremumPlaces_reverse]

omit [LinearOrder α] in
/-- Two places are as far from each other as their mirrored places. -/
theorem squaredDistance_mirror {n i : ℕ} (hp : p < n) (hi : i < n) :
    ((p : α) - (n - 1 - i : ℕ)) ^ 2 = (((n - 1 - p : ℕ) : α) - i) ^ 2 := by
  have hsum : (p : α) + (n - 1 - p : ℕ) = i + (n - 1 - i : ℕ) := by
    rw [← Nat.cast_add, ← Nat.cast_add, show p + (n - 1 - p) = i + (n - 1 - i) by omega]
  rw [show (p : α) - (n - 1 - i : ℕ) = -(((n - 1 - p : ℕ) : α) - i) by
    linear_combination hsum, neg_sq]

theorem envelopeAt_reverse (hp : p < xs.length) :
    envelopeAt (extrema kind xs.reverse) p =
      envelopeAt (extrema kind xs) (xs.length - 1 - p) := by
  by_cases h : p ∈ extremumPlaces kind xs.reverse
  · rw [envelopeAt_of_mem h, envelopeAt_of_mem ((mem_extremumPlaces_reverse hp).mp h),
      List.getD_reverse p hp]
  · rw [envelopeAt_eq_div h, envelopeAt_eq_div (mt (mem_extremumPlaces_reverse hp).mpr h),
      sum_extremumPlaces_reverse, sum_extremumPlaces_reverse]
    congr 1
    · refine Finset.sum_congr rfl fun i hi ↦ ?_
      have hi' := lt_length_of_mem_extremumPlaces hi
      rw [squaredDistance_mirror hp hi', List.getD_reverse _ (by omega),
        show xs.length - 1 - (xs.length - 1 - i) = i by omega]
    · refine Finset.sum_congr rfl fun i hi ↦ ?_
      rw [squaredDistance_mirror hp (lt_length_of_mem_extremumPlaces hi)]

theorem envelope_eq (kind : Extremum) (xs : List α) :
    envelope kind xs =
      if (extremumPlaces kind xs).card < 2 then .error ⟨kind, (extremumPlaces kind xs).card⟩
      else .ok ((List.range xs.length).map (envelopeAt (extrema kind xs))) := by
  rw [envelope, length_extrema]

theorem envelope_reverse (kind : Extremum) (xs : List α) :
    envelope kind xs.reverse = List.reverse <$> envelope kind xs := by
  rw [envelope_eq, envelope_eq, card_extremumPlaces_reverse]
  split
  · rfl
  · refine congrArg Except.ok (List.ext_getElem (by simp) fun p hp _ ↦ ?_)
    have hp' : p < xs.length := by simpa using hp
    rw [List.getElem_reverse]
    simp only [List.getElem_map, List.getElem_range, List.length_map, List.length_range,
      envelopeAt_reverse hp']

theorem meanEnvelope_reverse (xs : List α) :
    meanEnvelope xs.reverse = List.reverse <$> meanEnvelope xs := by
  unfold meanEnvelope
  rw [envelope_reverse, envelope_reverse]
  have hupper := envelope_ends .max xs
  have hlower := envelope_ends .min xs
  cases hmax : envelope .max xs with
  | error shortfall => rfl
  | ok upper =>
    cases hmin : envelope .min xs with
    | error shortfall => rfl
    | ok lower =>
      rw [hmax] at hupper
      rw [hmin] at hlower
      have hlength : upper.length = lower.length := hupper.value.trans hlower.value.symm
      exact congrArg Except.ok (List.reverse_zipWith hlength).symm

omit [LinearOrder α] in
theorem minus_reverse (h : ys.length = xs.length) :
    minus xs.reverse ys.reverse = (minus xs ys).reverse :=
  (List.reverse_zipWith h.symm).symm

omit [LinearOrder α] in
/-- A sum of products does not depend on the order of its terms. -/
theorem dot_reverse (xs : List α) : dot xs.reverse xs.reverse = dot xs xs := by
  rw [dot, dot, sum_eq_sum, sum_eq_sum, ← List.reverse_zipWith rfl, List.sum_reverse]

/-! ## Change of signs -/

def negated (xs : List α) : List α :=
  xs.map (-·)

omit [LinearOrder α] in
theorem length_negated (xs : List α) : (negated xs).length = xs.length :=
  List.length_map _

omit [LinearOrder α] in
theorem getD_negated (xs : List α) (p : ℕ) : (negated xs).getD p 0 = -xs.getD p 0 := by
  have hmap := List.getD_map (l := xs) (d := (0 : α)) (n := p) (-·)
  rwa [neg_zero] at hmap

omit [LinearOrder α] in
theorem minus_negated (xs ys : List α) :
    minus (negated xs) (negated ys) = negated (minus xs ys) := by
  unfold minus negated
  rw [List.zipWith_map, List.map_zipWith]
  refine congrArg (List.zipWith · xs ys) ?_
  funext a b
  rw [neg_sub_neg, neg_sub]

omit [LinearOrder α] in
theorem dot_negated (xs : List α) : dot (negated xs) (negated xs) = dot xs xs := by
  unfold dot negated
  rw [List.zipWith_map]
  simp only [neg_mul_neg]

variable [IsStrictOrderedRing α]

theorem extremumPlaces_negated (kind : Extremum) (xs : List α) :
    extremumPlaces kind.opposite (negated xs) = extremumPlaces kind xs := by
  unfold extremumPlaces
  rw [length_negated]
  refine Finset.filter_congr fun p _ ↦ ?_
  cases kind with
  | max => simp only [IsExtremum, Extremum.opposite, length_negated, getD_negated, neg_lt_neg_iff]
  | min => simp only [IsExtremum, Extremum.opposite, length_negated, getD_negated, neg_lt_neg_iff]

theorem envelopeAt_negated (kind : Extremum) (xs : List α) (p : ℕ) :
    envelopeAt (extrema kind.opposite (negated xs)) p = -envelopeAt (extrema kind xs) p := by
  have hplaces := extremumPlaces_negated kind xs
  by_cases h : p ∈ extremumPlaces kind xs
  · rw [envelopeAt_of_mem h, envelopeAt_of_mem (hplaces ▸ h), getD_negated]
  · rw [envelopeAt_eq_div h, envelopeAt_eq_div (hplaces ▸ h), hplaces]
    simp only [getD_negated, neg_div, Finset.sum_neg_distrib]

/-- The upper envelope of a negated signal is the negated lower one, and the other way round. -/
theorem envelope_negated (kind : Extremum) (xs : List α) :
    envelope kind.opposite (negated xs) =
      (negated <$> envelope kind xs).mapError Shortfall.opposite := by
  rw [envelope_eq, envelope_eq, extremumPlaces_negated, length_negated]
  split
  · rfl
  · refine congrArg Except.ok ?_
    change _ = ((List.range xs.length).map (envelopeAt (extrema kind xs))).map (-·)
    rw [List.map_map]
    exact List.map_congr_left fun p _ ↦ envelopeAt_negated kind xs p

/-- The two envelopes exchange their places, and with them the order in which they can fail. -/
theorem meanEnvelope_negated (xs : List α) :
    EndsAlike (fun _ _ ↦ True) negated (meanEnvelope xs) (meanEnvelope (negated xs)) := by
  have hupper : envelope .max (negated xs) =
      (negated <$> envelope .min xs).mapError Shortfall.opposite := envelope_negated .min xs
  have hlower : envelope .min (negated xs) =
      (negated <$> envelope .max xs).mapError Shortfall.opposite := envelope_negated .max xs
  unfold meanEnvelope
  rw [hupper, hlower]
  cases envelope .max xs with
  | error shortfall =>
    cases envelope .min xs with
    | error shortfall' => exact .error trivial
    | ok lower => exact .error trivial
  | ok upper =>
    cases envelope .min xs with
    | error shortfall => exact .error trivial
    | ok lower =>
      have hmean : List.zipWith (fun a b ↦ (a + b) / ((2 : ℕ) : α)) (negated lower)
          (negated upper) =
          negated (List.zipWith (fun a b ↦ (a + b) / ((2 : ℕ) : α)) upper lower) := by
        unfold negated
        rw [List.zipWith_map, List.map_zipWith, List.zipWith_comm]
        refine congrArg (List.zipWith · upper lower) ?_
        funext a b
        rw [← neg_add_rev, neg_div]
      change EndsAlike _ _ (.ok _) (.ok _)
      rw [hmean]
      exact .ok _

end Sifting

end WaveNotebook
