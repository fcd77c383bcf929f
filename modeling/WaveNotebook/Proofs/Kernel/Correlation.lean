import Mathlib.Algebra.BigOperators.Intervals
import Mathlib.Data.List.GetD
import WaveNotebook.Kernel.Wavelet
import WaveNotebook.Proofs.Kernel.Exact

/-!
# Clamped correlation as sums over windows

The correlation treats the positions of the data in three stretches, of which the middle one is
computed with the whole reach of the kernel and the outer ones with a window that an end of the
data cuts short. The stretches follow each other without a gap, also if the data are too short for
a middle one. All windows lie inside of the data and of the kernel, and in exact arithmetic every
value is the sum of the products over the widest symmetric window that does.
-/

namespace WaveNotebook

namespace Correlation

/-! ## Positions -/

section

variable (n r : ℕ)

/-- The positions before the interior. -/
def leading : List ℕ := List.range (min r n)

/-- The positions whose window has the whole reach of the kernel. -/
def interior : List ℕ := List.range' r (n - 2 * r)

/-- The positions behind the interior. -/
def trailing : List ℕ := List.range' (max r (n - r)) (n - max r (n - r))

/-- How far the window of a position goes to both sides. -/
def halfWidth (t : ℕ) : ℕ := min (min t (n - 1 - t)) r

theorem range_append_range' {s n : ℕ} (h : s ≤ n) :
    List.range s ++ List.range' s (n - s) = List.range n := by
  have happend := List.range'_append_1 (s := 0) (m := s) (n := n - s)
  rwa [Nat.zero_add, Nat.add_sub_cancel' h, ← List.range_eq_range', ← List.range_eq_range']
    at happend

theorem leading_append_interior_append_trailing :
    leading n r ++ interior n r ++ trailing n r = List.range n := by
  unfold leading interior trailing
  rcases Nat.lt_or_ge (2 * r) n with hlong | hshort
  · rw [min_eq_left (by omega), max_eq_right (by omega), show n - 2 * r = n - r - r by omega,
      range_append_range' (by omega), range_append_range' (by omega)]
  · rw [show n - 2 * r = 0 by omega, List.range'_zero, List.append_nil, max_eq_left (by omega)]
    rcases Nat.le_total r n with hreach | htiny
    · rw [min_eq_left hreach, range_append_range' hreach]
    · rw [min_eq_right htiny, show n - r = 0 by omega, List.range'_zero, List.append_nil]

variable {n r} {t : ℕ}

theorem mem_interior_iff : t ∈ interior n r ↔ r ≤ t ∧ t + r < n := by
  rw [interior, List.mem_range'_1]
  omega

theorem lt_of_mem_leading (h : t ∈ leading n r) : t < n := by
  rw [leading, List.mem_range] at h
  omega

theorem lt_of_mem_interior (h : t ∈ interior n r) : t < n := by
  rw [mem_interior_iff] at h
  omega

theorem lt_of_mem_trailing (h : t ∈ trailing n r) : t < n := by
  rw [trailing, List.mem_range'_1] at h
  omega

theorem halfWidth_of_mem_interior (h : t ∈ interior n r) : halfWidth n r t = r := by
  rw [mem_interior_iff] at h
  unfold halfWidth
  omega

end

/-! ## Windows -/

/-- The window of half-width `h` around a position lies inside of `n` data, and the one around the
centre inside of a kernel of length `m`. -/
structure Fits (n m h t : ℕ) : Prop where
  left : h ≤ t
  right : t + h < n
  kernel_left : h ≤ m / 2
  kernel_right : m / 2 + h < m

theorem fits_halfWidth {n m t : ℕ} (ht : t < n) (hm : 0 < m) :
    Fits n m (halfWidth n (reach m) t) t := by
  unfold halfWidth reach
  constructor
  all_goals omega

theorem fits_of_mem_interior {n m t : ℕ} (ht : t ∈ interior n (reach m)) (hm : 0 < m) :
    Fits n m (reach m) t := by
  have hfits := fits_halfWidth (lt_of_mem_interior ht) hm
  rwa [halfWidth_of_mem_interior ht] at hfits

theorem slice_toArray {α : Type} (xs : List α) (start count : ℕ) :
    slice xs.toArray start count = (xs.drop start).take count := by
  simp [slice]

section

variable {α : Type} [Semiring α] (data kernel : List α) {h t : ℕ}

/-- The products in a window, one for each place. -/
theorem windowAt_eq_map_range (hfits : Fits data.length kernel.length h t) :
    windowAt data.toArray kernel.toArray h t = (List.range (2 * h + 1)).map fun i ↦
      data.getD (t - h + i) 0 * kernel.getD (kernel.length / 2 - h + i) 0 := by
  obtain ⟨hleft, hright, hcentre, hkernel⟩ := hfits
  unfold windowAt
  rw [slice_toArray, slice_toArray, List.size_toArray]
  apply List.ext_getElem
  · simp only [List.length_zipWith, List.length_take, List.length_drop, List.length_map,
      List.length_range]
    omega
  · intro i hi hi'
    rw [List.length_map, List.length_range] at hi'
    rw [List.getElem_zipWith, List.getElem_take, List.getElem_take, List.getElem_drop,
      List.getElem_drop, List.getElem_map, List.getElem_range,
      List.getD_eq_getElem _ _ (by omega), List.getD_eq_getElem _ _ (by omega)]

/-- The sum of the products of data and kernel over the window of a position. -/
noncomputable def windowSum (h t : ℕ) : α :=
  ∑ d ∈ Finset.Icc (-h : ℤ) h,
    data.getD (t + d).toNat 0 * kernel.getD (kernel.length / 2 + d).toNat 0

theorem sum_windowAt (hfits : Fits data.length kernel.length h t) :
    sum (windowAt data.toArray kernel.toArray h t) = windowSum data kernel h t := by
  rw [sum_eq_sum, windowAt_eq_map_range _ _ hfits]
  obtain ⟨hleft, -, hcentre, -⟩ := hfits
  change ∑ i ∈ Finset.range (2 * h + 1), _ = _
  refine Finset.sum_bij' (fun i _ ↦ (i : ℤ) - h) (fun d _ ↦ (d + h).toNat) ?_ ?_ ?_ ?_ ?_
  · intro i hi
    rw [Finset.mem_range] at hi
    rw [Finset.mem_Icc]
    omega
  · intro d hd
    rw [Finset.mem_Icc] at hd
    rw [Finset.mem_range]
    omega
  · intro i _
    omega
  · intro d hd
    rw [Finset.mem_Icc] at hd
    omega
  · intro i _
    congr 2
    all_goals omega

/-! ## Values -/

theorem interiorValue_eq_windowSum
    (hfits : Fits data.length kernel.length (reach kernel.length) t) :
    interiorValue data.toArray kernel.toArray t =
      windowSum data kernel (reach kernel.length) t := by
  unfold interiorValue
  rw [List.size_toArray, sum_windowAt _ _ hfits]

/-- In exact arithmetic a single product is the sum of itself. -/
theorem edgeValue_eq_windowSum
    (hfits : Fits data.length kernel.length (halfWidth data.length (reach kernel.length) t) t) :
    edgeValue data.toArray kernel.toArray t =
      windowSum data kernel (halfWidth data.length (reach kernel.length) t) t := by
  rw [← sum_windowAt _ _ hfits]
  unfold edgeValue
  dsimp only
  rw [List.size_toArray, List.size_toArray]
  change _ = sum (windowAt _ _ (min (min t (data.length - 1 - t)) (reach kernel.length)) t)
  split
  · rename_i x hx
    rw [hx, sum_eq_sum, List.sum_singleton]
  · rfl

theorem clamped_eq_append :
    clamped data kernel =
      (leading data.length (reach kernel.length)).map
          (edgeValue data.toArray kernel.toArray) ++
        (interior data.length (reach kernel.length)).map
          (interiorValue data.toArray kernel.toArray) ++
        (trailing data.length (reach kernel.length)).map
          (edgeValue data.toArray kernel.toArray) :=
  rfl

/-- Over the three stretches the correlation takes at every position the window sum. -/
theorem clamped_eq_map_range (hkernel : kernel ≠ []) :
    clamped data kernel = (List.range data.length).map fun t ↦
      windowSum data kernel (halfWidth data.length (reach kernel.length) t) t := by
  have hpositive : 0 < kernel.length := List.length_pos_of_ne_nil hkernel
  have hedge : ∀ t < data.length, edgeValue data.toArray kernel.toArray t =
      windowSum data kernel (halfWidth data.length (reach kernel.length) t) t :=
    fun t ht ↦ edgeValue_eq_windowSum _ _ (fits_halfWidth ht hpositive)
  rw [clamped_eq_append, ← leading_append_interior_append_trailing _ (reach kernel.length),
    List.map_append, List.map_append]
  congr 1
  · congr 1
    · exact List.map_congr_left fun t ht ↦ hedge t (lt_of_mem_leading ht)
    · refine List.map_congr_left fun t ht ↦ ?_
      rw [halfWidth_of_mem_interior ht]
      exact interiorValue_eq_windowSum _ _ (fits_of_mem_interior ht hpositive)
  · exact List.map_congr_left fun t ht ↦ hedge t (lt_of_mem_trailing ht)

/-- The correlation is made of an interior and two edges. Their positions are all positions, each
of them once; every window lies inside of the data and of the kernel; and the value at a position
is the sum of the products over the widest symmetric window there. -/
theorem clamped_windows (hkernel : kernel ≠ []) :
    let n := data.length
    let r := reach kernel.length
    clamped data kernel =
        (leading n r).map (edgeValue data.toArray kernel.toArray) ++
          (interior n r).map (interiorValue data.toArray kernel.toArray) ++
          (trailing n r).map (edgeValue data.toArray kernel.toArray) ∧
      leading n r ++ interior n r ++ trailing n r = List.range n ∧
      (∀ t ∈ interior n r, Fits n kernel.length r t) ∧
      (∀ t ∈ leading n r ++ trailing n r, Fits n kernel.length (halfWidth n r t) t) ∧
      (clamped data kernel).length = n ∧
      ∀ t < n, (clamped data kernel)[t]? = some (windowSum data kernel (halfWidth n r t) t) := by
  intro n r
  have hpositive : 0 < kernel.length := List.length_pos_of_ne_nil hkernel
  have hclamped := clamped_eq_map_range data kernel hkernel
  refine ⟨clamped_eq_append data kernel, leading_append_interior_append_trailing n r,
    fun t ht ↦ fits_of_mem_interior ht hpositive, fun t ht ↦ ?_, ?_, fun t ht ↦ ?_⟩
  · rcases List.mem_append.mp ht with hleading | htrailing
    · exact fits_halfWidth (lt_of_mem_leading hleading) hpositive
    · exact fits_halfWidth (lt_of_mem_trailing htrailing) hpositive
  · rw [hclamped, List.length_map, List.length_range]
  · rw [hclamped, List.getElem?_map, List.getElem?_range ht, Option.map_some]

end

/-- An even kernel reaches one step less to the right of its centre than to the left. -/
theorem clamped_windows_evenKernel :
    ([1, -1, 4, 3] : List ℤ) ≠ [] ∧
      leading 5 1 ++ interior 5 1 ++ trailing 5 1 = List.range 5 ∧
      (∀ t ∈ interior 5 1, Fits 5 4 1 t) ∧
      (∀ t ∈ leading 5 1 ++ trailing 5 1, Fits 5 4 (halfWidth 5 1 t) t) ∧
      (clamped [2, 3, 5, 7, 11] ([1, -1, 4, 3] : List ℤ)).length = 5 ∧
      ∀ t < 5, (clamped [2, 3, 5, 7, 11] ([1, -1, 4, 3] : List ℤ))[t]? =
        some (windowSum [2, 3, 5, 7, 11] [1, -1, 4, 3] (halfWidth 5 1 t) t) := by
  have hkernel : ([1, -1, 4, 3] : List ℤ) ≠ [] := by decide
  obtain ⟨-, hwindows⟩ := clamped_windows [2, 3, 5, 7, 11] _ hkernel
  exact ⟨hkernel, hwindows⟩

example : clamped [2, 3, 5, 7, 11] ([1, -1, 4, 3] : List ℤ) = [8, 25, 38, 56, 44] := rfl

example : windowSum [2, 3, 5, 7, 11] ([1, -1, 4, 3] : List ℤ) 1 1 = 25 := by rfl

end Correlation

end WaveNotebook
