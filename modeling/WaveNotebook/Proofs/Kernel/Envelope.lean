import Mathlib.Algebra.Order.Ring.Rat
import Mathlib.Analysis.Convex.Combination
import Mathlib.Data.List.GetD
import WaveNotebook.Signal.Samples

/-!
# Envelopes as weighted means

An envelope is computed by adding up the extrema of a kind one after the other, at each position
with the inverse square of the distance as the weight, and then the values at the extrema themselves
are put in. In exact arithmetic, over any ordered field, the sums are those over the set of the
extrema. With two extrema there is always one at another position, so that no sum of weights is
zero, and a mean with positive weights lies between the least and the greatest of its values.
-/

namespace WaveNotebook.Sifting

variable {α : Type}

/-! ## Extrema -/

section

variable [LinearOrder α] [Zero α] (kind : Extremum) (xs : List α)

/-- The value at a place between the first and the last one is strictly above those at the places
beside it, or strictly below them. -/
def IsExtremum (p : ℕ) : Prop :=
  0 < p ∧ p + 1 < xs.length ∧
    match kind with
    | .max => xs.getD (p - 1) 0 < xs.getD p 0 ∧ xs.getD (p + 1) 0 < xs.getD p 0
    | .min => xs.getD p 0 < xs.getD (p - 1) 0 ∧ xs.getD p 0 < xs.getD (p + 1) 0

instance : DecidablePred (IsExtremum kind xs) := fun _ ↦
  match kind with
  | .max => inferInstanceAs (Decidable (_ ∧ _ ∧ _ ∧ _))
  | .min => inferInstanceAs (Decidable (_ ∧ _ ∧ _ ∧ _))

/-- The places of the extrema. -/
def extremumPlaces : Finset ℕ :=
  {p ∈ Finset.range xs.length | IsExtremum kind xs p}

theorem not_isExtremum_zero : ¬IsExtremum kind xs 0 := fun h ↦ absurd h.1 (lt_irrefl 0)

theorem isExtremum_one_iff (a b c : α) :
    IsExtremum kind (a :: b :: c :: xs) 1 ↔ kind.holds a b c = true := by
  cases kind
  all_goals simp [IsExtremum, Extremum.holds]

/-- Only the values beside a place decide whether it is an extremum, not the one further on. -/
theorem isExtremum_cons_iff (a : α) (p : ℕ) :
    IsExtremum kind (a :: xs) (p + 2) ↔ IsExtremum kind xs (p + 1) := by
  cases kind
  all_goals simp [IsExtremum]

variable {kind xs} in
theorem IsExtremum.three_le_length {p : ℕ} (h : IsExtremum kind xs p) : 3 ≤ xs.length := by
  have hpos := h.1
  have hlast := h.2.1
  omega

/-- The first three values decide on the first place that can be an extremum. -/
theorem filter_isExtremum_cons (a b c : α) (n : ℕ) :
    (List.range (n + 2)).filter (IsExtremum kind (a :: b :: c :: xs)) =
      (if kind.holds a b c then [1] else []) ++
        ((List.range (n + 1)).filter (IsExtremum kind (b :: c :: xs))).map Nat.succ := by
  have hfirst : decide (IsExtremum kind (a :: b :: c :: xs) 1) = kind.holds a b c := by
    rw [Bool.eq_iff_iff, decide_eq_true_eq, isExtremum_one_iff]
  have hlater : (fun p ↦ decide (IsExtremum kind (a :: b :: c :: xs) p)) ∘ Nat.succ ∘ Nat.succ =
      (fun p ↦ decide (IsExtremum kind (b :: c :: xs) p)) ∘ Nat.succ := by
    funext p
    exact decide_eq_decide.mpr (isExtremum_cons_iff kind (b :: c :: xs) a p)
  simp only [List.range_succ_eq_map, List.map_cons, List.filter_cons, not_isExtremum_zero,
    List.filter_map, List.map_map, decide_false, Bool.false_eq_true, if_false, hlater, hfirst]
  split
  · rfl
  · rfl

omit [LinearOrder α] in
theorem map_placed_succ (a : α) (start : ℕ) (ps : List ℕ) :
    (ps.map Nat.succ).map (fun p ↦ (start + p, (a :: xs).getD p 0)) =
      ps.map fun p ↦ (start + 1 + p, xs.getD p 0) := by
  rw [List.map_map]
  refine List.map_congr_left fun p _ ↦ Prod.ext ?_ rfl
  change start + (p + 1) = start + 1 + p
  omega

theorem extremaFrom_eq_map_filter (start : ℕ) :
    extremaFrom kind start xs =
      ((List.range xs.length).filter (IsExtremum kind xs)).map fun p ↦ (start + p, xs.getD p 0) := by
  fun_induction extremaFrom kind start xs with
  | case1 start a b c xs rest hholds ih =>
    simp only [List.length_cons] at ih ⊢
    rw [filter_isExtremum_cons, if_pos hholds, List.map_append, map_placed_succ, ← ih]
    rfl
  | case2 start a b c xs rest hholds ih =>
    simp only [List.length_cons] at ih ⊢
    rw [filter_isExtremum_cons, if_neg hholds, List.map_append, map_placed_succ, ← ih]
    rfl
  | case3 ys start hshort =>
    have hnone : (List.range ys.length).filter (IsExtremum kind ys) = [] := by
      rw [List.filter_eq_nil_iff]
      intro p _ hp
      have hlength := (of_decide_eq_true hp).three_le_length
      match ys with
      | a :: b :: c :: ys => exact hshort a b c ys rfl
    rw [hnone, List.map_nil]

/-- The extrema are found in the order of their places. -/
theorem extrema_eq_map : extrema kind xs =
    ((List.range xs.length).filter (IsExtremum kind xs)).map fun p ↦ (p, xs.getD p 0) := by
  unfold extrema
  simpa only [Nat.zero_add] using extremaFrom_eq_map_filter kind xs 0

theorem length_extrema : (extrema kind xs).length = (extremumPlaces kind xs).card := by
  rw [extrema_eq_map, List.length_map]
  rfl

theorem sum_map_extrema {β : Type} [AddCommMonoid β] (f : ℕ × α → β) :
    ((extrema kind xs).map f).sum = ∑ p ∈ extremumPlaces kind xs, f (p, xs.getD p 0) := by
  rw [extrema_eq_map, List.map_map]
  rfl

variable {kind xs} {p : ℕ}

theorem lookup_extrema_of_mem (h : p ∈ extremumPlaces kind xs) :
    (extrema kind xs).lookup p = some (xs.getD p 0) := by
  rw [extrema_eq_map]
  exact List.lookup_graph (fun p ↦ xs.getD p 0) h

theorem lookup_extrema_of_not_mem (h : p ∉ extremumPlaces kind xs) :
    (extrema kind xs).lookup p = none := by
  rw [extrema_eq_map, List.lookup_eq_none_iff]
  intro e he
  obtain ⟨i, hi, rfl⟩ := List.mem_map.mp he
  rw [bne_iff_ne]
  exact fun heq ↦ h (heq ▸ hi)

end

/-! ## Weights -/

section

variable [Field α] {p i : ℕ}

theorem squaredDistance_of_ne (h : p ≠ i) : squaredDistance p i = ((p : α) - i) ^ 2 := by
  rw [squaredDistance, if_neg h, sq]

theorem weight_self (p : ℕ) : weight p p = (0 : α) := by
  rw [weight, if_pos rfl, Nat.cast_zero]

theorem weight_of_ne (h : p ≠ i) : weight p i = 1 / ((p : α) - i) ^ 2 := by
  rw [weight, if_neg h, squaredDistance_of_ne h, Nat.cast_one]

/-- One extremum after the other is added to both sums. -/
theorem foldl_weigh (es : List (ℕ × α)) (numerator denominator : α) :
    es.foldl (fun acc e ↦ (acc.1 + weight p e.1 * e.2, acc.2 + weight p e.1))
        (numerator, denominator) =
      (numerator + (es.map fun e ↦ weight p e.1 * e.2).sum,
        denominator + (es.map fun e ↦ weight p e.1).sum) := by
  induction es generalizing numerator denominator with
  | nil => simp
  | cons e es ih => simp only [List.foldl_cons, ih, List.map_cons, List.sum_cons, add_assoc]

variable [LinearOrder α]

theorem weigh_extrema (kind : Extremum) (xs : List α) (p : ℕ) :
    weigh p (extrema kind xs) =
      (∑ i ∈ extremumPlaces kind xs, weight p i * xs.getD i 0,
        ∑ i ∈ extremumPlaces kind xs, weight p i) := by
  rw [weigh, foldl_weigh, Nat.cast_zero, zero_add, zero_add]
  exact Prod.ext (sum_map_extrema kind xs fun e ↦ weight p e.1 * e.2)
    (sum_map_extrema kind xs fun e ↦ weight p e.1)

variable [IsStrictOrderedRing α]

theorem squaredDistance_pos (p i : ℕ) : 0 < (squaredDistance p i : α) := by
  by_cases h : p = i
  · rw [squaredDistance, if_pos h, Nat.cast_one]
    exact one_pos
  · rw [squaredDistance_of_ne h, sq_pos_iff, sub_ne_zero]
    exact_mod_cast h

theorem weight_pos (h : p ≠ i) : 0 < (weight p i : α) := by
  rw [weight, if_neg h, Nat.cast_one]
  exact one_div_pos.mpr (squaredDistance_pos p i)

theorem weight_nonneg (p i : ℕ) : 0 ≤ (weight p i : α) := by
  by_cases h : p = i
  · rw [h, weight_self]
  · exact (weight_pos h).le

/-- Of two extrema one has a weight, also at the position of the other one. -/
theorem sum_weight_pos {places : Finset ℕ} (h : 2 ≤ places.card) (p : ℕ) :
    0 < ∑ i ∈ places, (weight p i : α) := by
  obtain ⟨i, hi, hne⟩ := Finset.exists_mem_ne h p
  exact Finset.sum_pos' (fun j _ ↦ weight_nonneg p j) ⟨i, hi, weight_pos hne.symm⟩

end

/-! ## Values -/

section

variable [Field α] [LinearOrder α] {kind : Extremum} {xs : List α} {p : ℕ}

theorem envelopeAt_of_mem (h : p ∈ extremumPlaces kind xs) :
    envelopeAt (extrema kind xs) p = xs.getD p 0 := by
  rw [envelopeAt, lookup_extrema_of_mem h, Option.getD_some]

theorem envelopeAt_of_not_mem (h : p ∉ extremumPlaces kind xs) :
    envelopeAt (extrema kind xs) p =
      (extremumPlaces kind xs).centerMass (fun i ↦ (weight p i : α)) fun i ↦ xs.getD i 0 := by
  rw [envelopeAt, weigh_extrema, lookup_extrema_of_not_mem h]
  exact div_eq_inv_mul _ _

/-- Away from the extrema the weights are the inverse squares of the distances. -/
theorem envelopeAt_eq_div (h : p ∉ extremumPlaces kind xs) :
    envelopeAt (extrema kind xs) p =
      (∑ i ∈ extremumPlaces kind xs, xs.getD i 0 / ((p : α) - i) ^ 2) /
        ∑ i ∈ extremumPlaces kind xs, 1 / ((p : α) - i) ^ 2 := by
  have hweight : ∀ i ∈ extremumPlaces kind xs, (weight p i : α) = 1 / ((p : α) - i) ^ 2 :=
    fun i hi ↦ weight_of_ne fun heq ↦ h (heq ▸ hi)
  have hvalue : ∀ i ∈ extremumPlaces kind xs,
      weight p i * xs.getD i 0 = xs.getD i 0 / ((p : α) - i) ^ 2 := fun i hi ↦ by
    rw [hweight i hi, one_div_mul_eq_div]
  rw [envelopeAt, weigh_extrema, lookup_extrema_of_not_mem h, Finset.sum_congr rfl hweight,
    Finset.sum_congr rfl hvalue]
  rfl

/-- The envelope lies between the bounds of the values at the extrema. -/
theorem envelopeAt_mem_Icc [IsStrictOrderedRing α] {lo hi : α}
    (hcard : 2 ≤ (extremumPlaces kind xs).card)
    (hbounds : ∀ i ∈ extremumPlaces kind xs, xs.getD i 0 ∈ Set.Icc lo hi) (p : ℕ) :
    envelopeAt (extrema kind xs) p ∈ Set.Icc lo hi := by
  by_cases h : p ∈ extremumPlaces kind xs
  · rw [envelopeAt_of_mem h]
    exact hbounds p h
  · rw [envelopeAt_of_not_mem h]
    exact (convex_Icc lo hi).centerMass_mem (fun i _ ↦ weight_nonneg p i)
      (sum_weight_pos hcard p) hbounds

/-- The envelope of a kind, asked for by its name. -/
theorem envelopeOf_name (kind : Extremum) (xs : List α) :
    envelopeOf (.text kind.name) xs =
      if (extremumPlaces kind xs).card < 2 then
        .error (.algorithm (.extrema ⟨kind, (extremumPlaces kind xs).card⟩))
      else .ok ((List.range xs.length).map (envelopeAt (extrema kind xs))) := by
  have hkind : Extremum.ofDatum (.text kind.name) = .ok kind := by
    cases kind
    · rfl
    · rfl
  simp only [envelopeOf, hkind, envelope, length_extrema]
  split
  · rfl
  · rfl

theorem envelopeOf_eq_error_iff (kind : Extremum) (xs : List α) {fault : Fault} :
    envelopeOf (.text kind.name) xs = .error fault ↔ (extremumPlaces kind xs).card < 2 ∧
      fault = .algorithm (.extrema ⟨kind, (extremumPlaces kind xs).card⟩) := by
  rw [envelopeOf_name]
  split
  · rename_i hfew
    rw [Except.error.injEq, eq_comm]
    exact (and_iff_right hfew).symm
  · rename_i henough
    exact iff_of_false (fun h ↦ nomatch h) fun h ↦ henough h.1

/-- An envelope is refused exactly if there are fewer than two extrema of its kind, and the fault
says how many there are. Otherwise no divisor is zero at any position. The envelope passes through
the extrema, and elsewhere it is the mean of their values with the inverse squares of the distances
as weights. It stays between the least and the greatest of these values. -/
theorem envelopeOf_weightedMean [IsStrictOrderedRing α] (kind : Extremum) (xs : List α) :
    let places := extremumPlaces kind xs
    let value := fun i ↦ xs.getD i 0
    (∀ fault, envelopeOf (.text kind.name) xs = .error fault ↔
      places.card < 2 ∧ fault = .algorithm (.extrema ⟨kind, places.card⟩)) ∧
      (2 ≤ places.card → ∃ ys, envelopeOf (.text kind.name) xs = .ok ys ∧
        ys.length = xs.length ∧
        (∀ p < xs.length, (∀ i ∈ places, (squaredDistance p i : α) ≠ 0) ∧
          (weigh p (extrema kind xs)).2 ≠ 0) ∧
        (∀ p ∈ places, ys[p]? = xs[p]?) ∧
        (∀ p < xs.length, p ∉ places → ys[p]? =
          some ((∑ i ∈ places, value i / ((p : α) - i) ^ 2) /
            ∑ i ∈ places, 1 / ((p : α) - i) ^ 2)) ∧
        ∃ lo ∈ places, ∃ hi ∈ places, (∀ i ∈ places, value lo ≤ value i ∧ value i ≤ value hi) ∧
          ∀ y ∈ ys, value lo ≤ y ∧ y ≤ value hi) := by
  intro places value
  refine ⟨fun fault ↦ envelopeOf_eq_error_iff kind xs, fun hcard ↦ ?_⟩
  have hget : ∀ p < xs.length,
      ((List.range xs.length).map (envelopeAt (extrema kind xs)))[p]? =
        some (envelopeAt (extrema kind xs) p) := fun p hp ↦ by
    rw [List.getElem?_map, List.getElem?_range hp, Option.map_some]
  have hplaces : places.Nonempty := Finset.card_pos.mp (by omega)
  obtain ⟨lo, hlo, hleast⟩ := places.exists_min_image value hplaces
  obtain ⟨hi, hhi, hgreatest⟩ := places.exists_max_image value hplaces
  rw [envelopeOf_name, if_neg (not_lt_of_ge hcard)]
  refine ⟨_, rfl, ?_, fun p _ ↦ ⟨fun i _ ↦ (squaredDistance_pos p i).ne', ?_⟩, fun p hp ↦ ?_,
    fun p hp hplace ↦ ?_, lo, hlo, hi, hhi, fun i hi ↦ ⟨hleast i hi, hgreatest i hi⟩,
    fun y hy ↦ ?_⟩
  · rw [List.length_map, List.length_range]
  · rw [weigh_extrema]
    exact (sum_weight_pos hcard p).ne'
  · have hp' : p < xs.length := Finset.mem_range.mp (Finset.mem_filter.mp hp).1
    rw [hget p hp', envelopeAt_of_mem hp, List.getD_eq_getElem _ _ hp',
      List.getElem?_eq_getElem hp']
  · rw [hget p hp, envelopeAt_eq_div hplace]
  · obtain ⟨p, -, rfl⟩ := List.mem_map.mp hy
    exact envelopeAt_mem_Icc hcard (fun i hi ↦ ⟨hleast i hi, hgreatest i hi⟩) p

end

/-- A signal with three maxima, of which the last one is the least. -/
theorem envelopeOf_threeMaxima :
    let xs : List ℚ := [0, 2, 0, -1, 0, 3, 1, 0, 3 / 2, 0]
    let value := fun i ↦ xs.getD i 0
    extremumPlaces .max xs = {1, 5, 8} ∧ ∃ ys, envelopeOf (.text "max") xs = .ok ys ∧
      ys.length = 10 ∧
      (∀ p < 10, (∀ i ∈ ({1, 5, 8} : Finset ℕ), (squaredDistance p i : ℚ) ≠ 0) ∧
        (weigh p (extrema .max xs)).2 ≠ 0) ∧
      (∀ p ∈ ({1, 5, 8} : Finset ℕ), ys[p]? = xs[p]?) ∧
      (∀ p < 10, p ∉ ({1, 5, 8} : Finset ℕ) → ys[p]? =
        some ((∑ i ∈ {1, 5, 8}, value i / ((p : ℚ) - i) ^ 2) /
          ∑ i ∈ {1, 5, 8}, 1 / ((p : ℚ) - (i : ℕ)) ^ 2)) ∧
      ∃ lo ∈ ({1, 5, 8} : Finset ℕ), ∃ hi ∈ ({1, 5, 8} : Finset ℕ),
        (∀ i ∈ ({1, 5, 8} : Finset ℕ), value lo ≤ value i ∧ value i ≤ value hi) ∧
          ∀ y ∈ ys, value lo ≤ y ∧ y ≤ value hi := by
  intro xs value
  have hplaces : extremumPlaces .max xs = {1, 5, 8} := by decide +kernel
  have hmean := (envelopeOf_weightedMean .max xs).2
  rw [hplaces] at hmean
  exact ⟨hplaces, hmean (by decide)⟩

example : envelope .max ([0, 1, 0, 3, 0] : List ℚ) = .ok [6 / 5, 1, 2, 3, 14 / 5] := by
  decide +kernel

end WaveNotebook.Sifting
