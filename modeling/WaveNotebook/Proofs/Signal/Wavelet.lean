import WaveNotebook.Proofs.Grid.Nested
import WaveNotebook.Proofs.Kernel.Correlation
import WaveNotebook.Signal.Analysis

/-!
# Wavelet rows of reversed signals

A wavelet has the same values on both sides of zero, and its kernel is sampled around its centre.
The kernel has an even number of points, so that its first one has no partner on the other side of
the centre; but no window reaches it. Windows at positions with the same distance from the two ends
of a signal are equally wide. Therefore the correlation with a wavelet commutes with the reversal of
the signal, at every scale, and the entries of a transform are sums over symmetric windows.
-/

namespace WaveNotebook

namespace Correlation

/-! ## Symmetric kernels -/

section

variable {α : Type} [Semiring α]

/-- As far as a kernel reaches to both sides of its centre, it has the same entries there. -/
def IsSymmetric (kernel : List α) : Prop :=
  ∀ d : ℤ, d.natAbs ≤ reach kernel.length →
    kernel.getD (kernel.length / 2 + -d).toNat 0 = kernel.getD (kernel.length / 2 + d).toNat 0

theorem halfWidth_symm {n r t : ℕ} (ht : t < n) : halfWidth n r (n - 1 - t) = halfWidth n r t := by
  unfold halfWidth
  omega

theorem halfWidth_le (n r t : ℕ) : halfWidth n r t ≤ r :=
  min_le_right _ _

/-- Reversing the data and going to the position as far from the other end exchanges the two
sides of a window. -/
theorem windowSum_reverse {data kernel : List α} (hkernel : IsSymmetric kernel) {h t : ℕ}
    (hreach : h ≤ reach kernel.length) (hleft : h ≤ t) (hright : t + h < data.length) :
    windowSum data.reverse kernel h (data.length - 1 - t) = windowSum data kernel h t := by
  unfold windowSum
  refine Finset.sum_equiv (Equiv.neg ℤ) (fun d ↦ ?_) (fun d hd ↦ ?_)
  · rw [Finset.mem_Icc, Equiv.neg_apply, Finset.mem_Icc]
    omega
  · rw [Finset.mem_Icc] at hd
    rw [Equiv.neg_apply, hkernel d (by omega), List.getD_reverse _ (by omega)]
    congr 2
    omega

theorem clamped_reverse {kernel : List α} (hkernel : IsSymmetric kernel) (hne : kernel ≠ [])
    (data : List α) : clamped data.reverse kernel = (clamped data kernel).reverse := by
  rw [clamped_eq_map_range _ _ hne, clamped_eq_map_range _ _ hne, List.length_reverse]
  apply List.ext_getElem
  · rw [List.length_reverse, List.length_map, List.length_map]
  · intro t ht _
    rw [List.length_map, List.length_range] at ht
    rw [List.getElem_reverse]
    simp only [List.getElem_map, List.getElem_range, List.length_map, List.length_range]
    have hmirror : data.length - 1 - t < data.length := by omega
    have hfits := fits_halfWidth hmirror (List.length_pos_of_ne_nil hne)
    have hsame := windowSum_reverse hkernel (halfWidth_le _ _ _) hfits.left hfits.right
    rw [show data.length - 1 - (data.length - 1 - t) = t by omega] at hsame
    rwa [halfWidth_symm ht] at hsame ⊢

end

end Correlation

namespace Wavelet

/-! ## Kernels -/

/-- The exponential function takes the square of the point, and the cosine is even. -/
theorem value_neg (w : Wavelet) (t : ℝ) : w.value (-t) = w.value t := by
  cases w with
  | morlet =>
    change Real.exp (-(-t) * -t / (2 : ℕ)) * Real.cos ((5 : ℕ) * -t) =
      Real.exp (-t * t / (2 : ℕ)) * Real.cos ((5 : ℕ) * t)
    rw [neg_mul_comm, neg_neg, mul_neg, Real.cos_neg]
  | mexican => simp only [value, neg_mul_neg]

theorem length_kernel (w : Wavelet) (width : ℕ) (scale : ℝ) :
    (w.kernel width scale).length = width := by
  rw [kernel, List.length_map, List.length_range]

/-- The entries of a kernel of even length are the values at the distances from its centre. -/
theorem getD_kernel (w : Wavelet) {m : ℕ} (hm : 0 < m) (scale : ℝ) {d : ℤ}
    (hd : d.natAbs ≤ Correlation.reach (2 * m)) :
    (w.kernel (2 * m) scale).getD (((2 * m : ℕ) : ℤ) / 2 + d).toNat 0 = w.value (d / scale) := by
  unfold Correlation.reach at hd
  obtain ⟨i, hi⟩ : ∃ i : ℕ, (i : ℤ) = m + d := ⟨(m + d).toNat, by omega⟩
  have hplace : (((2 * m : ℕ) : ℤ) / 2 + d).toNat = i := by omega
  have hcentre : (i : ℝ) - ((2 * m : ℕ) : ℝ) / (2 : ℕ) = d := by
    have hreal : (i : ℝ) = m + d := by exact_mod_cast hi
    rw [hreal]
    push_cast
    ring
  have hlt : i < (w.kernel (2 * m) scale).length := by
    rw [length_kernel]
    omega
  rw [hplace, List.getD_eq_getElem _ _ hlt]
  simp only [kernel, List.getElem_map, List.getElem_range, hcentre]

theorem isSymmetric_kernel (w : Wavelet) {m : ℕ} (hm : 0 < m) (scale : ℝ) :
    Correlation.IsSymmetric (w.kernel (2 * m) scale) := by
  unfold Correlation.IsSymmetric
  rw [length_kernel]
  intro d hd
  rw [w.getD_kernel hm scale hd, w.getD_kernel hm scale (by rwa [Int.natAbs_neg]), Int.cast_neg,
    neg_div, value_neg]

end Wavelet

namespace Signal

/-! ## Rows -/

section

variable (w : Wavelet) (level : ℕ) (xs : List ℝ)

/-- The kernel of a level. It is ten times as long as its scale, which makes its length even. -/
noncomputable def levelKernel : List ℝ :=
  w.kernel (2 * (5 * 2 ^ level)) (2 ^ level)

theorem waveletRow_eq_map_clamped :
    waveletRow w xs level =
      (Correlation.clamped xs (levelKernel w level)).map (· / √(2 ^ level)) := by
  have hwidth : 10 * Nat.pow 2 level = 2 * (5 * 2 ^ level) := by
    rw [← mul_assoc]
    rfl
  have hscale : (dyadicScale level : ℝ) = 2 ^ level := by
    rw [dyadicScale, Nat.pow_eq, Nat.cast_pow, Nat.cast_ofNat]
  unfold waveletRow levelKernel
  dsimp only
  rw [hwidth, hscale]
  rfl

theorem length_levelKernel : (levelKernel w level).length = 2 * (5 * 2 ^ level) :=
  w.length_kernel _ _

theorem reach_levelKernel : Correlation.reach (2 * (5 * 2 ^ level)) = 5 * 2 ^ level - 1 := by
  unfold Correlation.reach
  omega

theorem five_mul_two_pow_pos : 0 < 5 * 2 ^ level :=
  Nat.mul_pos (by decide) (Nat.two_pow_pos level)

theorem levelKernel_ne_nil : levelKernel w level ≠ [] := by
  have hpos := five_mul_two_pow_pos level
  rw [← List.length_pos_iff, length_levelKernel]
  omega

/-- The coefficient of a signal at a level and a position: the sum of the samples around it times
the values of the wavelet, over the root of the scale. The ends of the signal and the reach of the
kernel bound how far it goes to both sides. -/
noncomputable def coefficient (t : ℕ) : ℝ :=
  let h := Correlation.halfWidth xs.length (5 * 2 ^ level - 1) t
  (∑ d ∈ Finset.Icc (-h : ℤ) h, xs.getD (t + d).toNat 0 * w.value ((d : ℝ) / 2 ^ level)) /
    √(2 ^ level)

theorem waveletRow_eq_map_range :
    waveletRow w xs level = (List.range xs.length).map (coefficient w level xs) := by
  rw [waveletRow_eq_map_clamped, Correlation.clamped_eq_map_range _ _ (levelKernel_ne_nil w level),
    List.map_map]
  refine List.map_congr_left fun t _ ↦ ?_
  have hle := Correlation.halfWidth_le xs.length (5 * 2 ^ level - 1) t
  rw [Function.comp_apply, length_levelKernel, reach_levelKernel]
  refine congrArg (· / √(2 ^ level)) (Finset.sum_congr rfl fun d hd ↦ ?_)
  have hreach : d.natAbs ≤ Correlation.reach (2 * (5 * 2 ^ level)) := by
    rw [Finset.mem_Icc] at hd
    rw [reach_levelKernel]
    omega
  rw [length_levelKernel, levelKernel, w.getD_kernel (five_mul_two_pow_pos level) _ hreach]

theorem length_waveletRow : (waveletRow w xs level).length = xs.length := by
  rw [waveletRow_eq_map_range, List.length_map, List.length_range]

theorem waveletRow_reverse : waveletRow w xs.reverse level = (waveletRow w xs level).reverse := by
  have hsymmetric : Correlation.IsSymmetric (levelKernel w level) :=
    w.isSymmetric_kernel (five_mul_two_pow_pos level) _
  rw [waveletRow_eq_map_clamped, waveletRow_eq_map_clamped,
    Correlation.clamped_reverse hsymmetric (levelKernel_ne_nil w level), List.map_reverse]

theorem waveletRows_reverse (levels : ℕ) :
    waveletRows w levels xs.reverse = (waveletRows w levels xs).map List.reverse := by
  unfold waveletRows
  rw [List.map_map]
  exact List.map_congr_left fun level _ ↦ waveletRow_reverse w level xs

/-- Each row depends on its level only, not on how many there are. -/
theorem take_waveletRows {k levels : ℕ} (h : k ≤ levels) :
    (waveletRows w levels xs).take k = waveletRows w k xs := by
  rw [waveletRows, ← List.map_take, List.take_range, min_eq_left h]
  rfl

theorem exists_grid_waveletRows {k : ℕ} (hk : 1 ≤ k) (hxs : xs ≠ []) :
    ∃ g : Grid ℝ, Grid.ofRows (waveletRows w k xs) = .ok g ∧ g.rows = k ∧ g.cols = xs.length ∧
      g.toRows = waveletRows w k xs := by
  have hlength : ∀ row ∈ waveletRows w k xs, row.length = xs.length :=
    List.forall_mem_map.mpr fun level _ ↦ length_waveletRow w level xs
  obtain ⟨g, hrows, hcols, heq⟩ := Grid.exists_toRows_eq hlength
  rw [waveletRows, List.length_map, List.length_range] at hrows
  have hpos : 0 < xs.length := List.length_pos_of_ne_nil hxs
  refine ⟨g, ?_, hrows, hcols, heq⟩
  rw [← heq, Grid.ofRows, Grid.ofRows?_toRows (by omega)]
  dsimp only
  rw [Grid.validate, if_neg (by omega), if_pos ((Grid.allFinite_iff g).mpr fun _ _ ↦ rfl)]

end

/-! ## Transforms -/

/-- Why there is no room for the scales of so many levels or for one of the kernels, if there is
none. The first kernel that does not fit tells. -/
def waveletRoomFault? (levels : ℕ) : Option NumericFault :=
  (allocationFault? levels "int64").or
    ((List.range levels).findSome? fun level ↦ allocationFault? (10 * Nat.pow 2 level) "int64")

theorem kernelFault?_eq (levels : ℕ) : kernelFault? levels =
    (List.range levels).findSome? fun level ↦ allocationFault? (10 * Nat.pow 2 level) "int64" := by
  unfold kernelFault?
  obtain hlt | hle := Nat.lt_or_ge levels 64
  · rw [min_eq_left hlt.le]
  · -- one of the first kernels does not fit, so those behind it are not asked for
    obtain ⟨rest, rfl⟩ := Nat.exists_eq_add_of_le hle
    have hfirst : ((List.range 64).findSome? fun level ↦
        allocationFault? (10 * Nat.pow 2 level) "int64").isSome = true := by decide
    obtain ⟨fault, hfault⟩ := Option.isSome_iff_exists.mp hfirst
    rw [min_eq_right hle, List.range_add, List.findSome?_append, hfault, Option.some_or]

theorem positiveInteger_natCast {k : ℕ} (hk : 1 ≤ k) (fault : SignalFault) :
    positiveInteger (.integer k) fault = .ok k := by
  change (if (1 : ℤ) ≤ k then .ok (k : ℤ).toNat else .error (.signal fault) : Except Fault ℕ) = _
  rw [if_pos (by exact_mod_cast hk), Int.toNat_natCast]

theorem exists_wavelet_of_mem_names {name : String} (hname : name ∈ Wavelet.names) :
    ∃ w, Wavelet.ofName? name = some w := by
  have hknown : ∀ name ∈ Wavelet.names, (Wavelet.ofName? name).isSome = true := by decide
  exact Option.isSome_iff_exists.mp (hknown name hname)

/-- A transform whose arguments are in order is made of the rows. -/
theorem waveletTransform_eq {name : String} {w : Wavelet} (hname : Wavelet.ofName? name = some w)
    {k : ℕ} (hk : 1 ≤ k) {s : Signal ℝ} (hs : s.samples ≠ []) :
    s.waveletTransform (.text name) (.integer k) =
      match waveletRoomFault? k with
      | some fault => .error (.numeric fault)
      | none => Grid.ofRows (waveletRows w k s.samples) := by
  have hwavelet : Wavelet.ofDatum (.text name) = .ok w := by
    have hfound : lookupName Wavelet.ofName? (.text name) = .ok (some w) :=
      congrArg Except.ok hname
    rw [Wavelet.ofDatum, hfound]
    rfl
  have hsamples : ¬s.samples.isEmpty = true := by
    rwa [List.isEmpty_iff]
  unfold waveletTransform waveletRoomFault?
  rw [positiveInteger_natCast hk, hwavelet, ← kernelFault?_eq]
  dsimp only [bind, Except.bind]
  rw [if_neg hsamples]
  cases allocationFault? k "int64" with
  | some fault => rfl
  | none => rfl

/-- The transform has a row for each level and a column for each sample, unless there is no room
for them, and its entries are the sums over symmetric windows. In exact arithmetic the rows of a
reversed signal are the rows of the signal, reversed, and further levels leave the rows of the
first ones as they are. -/
theorem waveletTransform_reverse {name : String} (hname : name ∈ Wavelet.names) {k : ℕ} (hk : 1 ≤ k)
    {s : Signal ℝ} (hs : s.samples ≠ []) :
    ∃ w, Wavelet.ofName? name = some w ∧
      (∃ g : Grid ℝ, g.rows = k ∧ g.cols = s.size ∧ g.toRows = waveletRows w k s.samples ∧
        s.waveletTransform (.text name) (.integer k) =
          match waveletRoomFault? k with
          | some fault => .error (.numeric fault)
          | none => .ok g) ∧
      waveletRows w k s.samples =
        (List.range k).map (fun level ↦ (List.range s.size).map (coefficient w level s.samples)) ∧
      waveletRows w k s.samples.reverse = (waveletRows w k s.samples).map List.reverse ∧
      (waveletRows w (k + 1) s.samples).take k = waveletRows w k s.samples := by
  obtain ⟨w, hw⟩ := exists_wavelet_of_mem_names hname
  obtain ⟨g, hgrid, hrows, hcols, heq⟩ := exists_grid_waveletRows w s.samples hk hs
  refine ⟨w, hw, ⟨g, hrows, hcols, heq, ?_⟩,
    List.map_congr_left fun level _ ↦ waveletRow_eq_map_range w level s.samples,
    waveletRows_reverse w s.samples k, take_waveletRows w s.samples (Nat.le_succ k)⟩
  rw [waveletTransform_eq hw hk hs, hgrid]

/-- The second name of a wavelet, with a scale whose kernel reaches beyond both ends of the
signal. -/
theorem waveletTransform_ricker :
    "ricker" ∈ Wavelet.names ∧ 1 ≤ 2 ∧ ([1, 3, 2] : List ℝ) ≠ [] ∧
      (∃ g : Grid ℝ, (⟨[1, 3, 2], 1, []⟩ : Signal ℝ).waveletTransform (.text "ricker") (.integer 2) =
        .ok g ∧ g.rows = 2 ∧ g.cols = 3 ∧ g.toRows = waveletRows .mexican 2 [1, 3, 2]) ∧
      waveletRows .mexican 2 ([1, 3, 2] : List ℝ) =
        (List.range 2).map (fun level ↦
          (List.range 3).map (coefficient .mexican level [1, 3, 2])) ∧
      waveletRows .mexican 2 ([2, 3, 1] : List ℝ) =
        (waveletRows .mexican 2 [1, 3, 2]).map List.reverse ∧
      (waveletRows .mexican 3 ([1, 3, 2] : List ℝ)).take 2 = waveletRows .mexican 2 [1, 3, 2] := by
  have hname : "ricker" ∈ Wavelet.names := by decide
  have hsamples : ([1, 3, 2] : List ℝ) ≠ [] := List.cons_ne_nil _ _
  obtain ⟨w, hw, ⟨g, hrows, hcols, heq, htransform⟩, hsums, hreverse, htake⟩ :=
    waveletTransform_reverse hname one_le_two (s := ⟨[1, 3, 2], 1, []⟩) hsamples
  obtain rfl : Wavelet.mexican = w := Option.some.inj hw
  exact ⟨hname, one_le_two, hsamples, ⟨g, htransform, hrows, hcols, heq⟩, hsums, hreverse, htake⟩

end Signal

end WaveNotebook
