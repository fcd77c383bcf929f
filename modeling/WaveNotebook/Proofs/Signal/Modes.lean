import Mathlib.Data.List.GetD
import WaveNotebook.Proofs.Kernel.Exact
import WaveNotebook.Proofs.Kernel.Sifting
import WaveNotebook.Signal.Samples

/-!
# Modes taken one after the other

A decomposition sifts each mode from what the modes before it have left. So it does not matter to a
mode how many are to follow: the modes of a shorter decomposition are the first ones of a longer
one, and where a mode cannot be sifted every decomposition fails that goes so far, with the same
fault. What is left in the end and the modes add up to the signal.
-/

namespace WaveNotebook

namespace Sifting

/-- What is left of a signal when modes are taken away from it one after the other. -/
def residual {α : Type} [Sub α] (xs : List α) (modes : List (List α)) : List α :=
  modes.foldl minus xs

/-! ## Longer and shorter decompositions -/

section

variable {α : Type} [NatCast α] [Add α] [Sub α] [Mul α] [Div α] [LT α] [DecidableLT α]
  [OfScientific α] [Elementary α] {cap count : ℕ} {xs : List α}

theorem sift_residual {j : ℕ} (hj : j < (decompose cap count xs).modes.length) :
    sift cap (residual xs (((decompose cap count xs).modes.take j).map (·.mode))) =
      .ok (decompose cap count xs).modes[j] := by
  induction count generalizing xs j with
  | zero => exact absurd hj (Nat.not_lt_zero j)
  | succ count ih =>
    cases h : sift cap xs with
    | error shortfall =>
      simp only [decompose_succ_of_error h] at hj
      exact absurd hj (Nat.not_lt_zero j)
    | ok s =>
      simp only [decompose_succ_of_ok h] at hj ⊢
      cases j with
      | zero => exact h
      | succ j => exact ih (Nat.lt_of_succ_lt_succ hj)

/-- The first modes of a decomposition are those of a shorter one. -/
theorem decompose_of_le_length {j : ℕ} (hj : j ≤ (decompose cap count xs).modes.length) :
    decompose cap j xs = ⟨(decompose cap count xs).modes.take j, none⟩ := by
  induction count generalizing xs j with
  | zero =>
    obtain rfl := Nat.le_zero.mp hj
    rfl
  | succ count ih =>
    cases j with
    | zero => rfl
    | succ j =>
      cases h : sift cap xs with
      | error shortfall =>
        rw [decompose_succ_of_error h] at hj
        exact absurd hj (Nat.not_succ_le_zero j)
      | ok s =>
        rw [decompose_succ_of_ok h] at hj ⊢
        rw [decompose_succ_of_ok h, ih (Nat.le_of_succ_le_succ hj), List.take_succ_cons]

/-- A decomposition that fails on a mode is the same however many modes are asked for behind it. -/
theorem decompose_of_failure {shortfall : Shortfall}
    (hfailure : (decompose cap count xs).failure = some shortfall) {count' : ℕ}
    (hcount : (decompose cap count xs).modes.length < count') :
    decompose cap count' xs = decompose cap count xs := by
  induction count generalizing xs count' with
  | zero => cases hfailure
  | succ count ih =>
    obtain ⟨count', rfl⟩ := Nat.exists_eq_add_one_of_ne_zero (Nat.ne_zero_of_lt hcount)
    cases h : sift cap xs with
    | error shortfall => rw [decompose_succ_of_error h, decompose_succ_of_error h]
    | ok s =>
      rw [decompose_succ_of_ok h] at hfailure hcount
      rw [decompose_succ_of_ok h, decompose_succ_of_ok h,
        ih hfailure (Nat.lt_of_succ_lt_succ hcount)]

theorem length_modes_lt_of_failure {shortfall : Shortfall}
    (hfailure : (decompose cap count xs).failure = some shortfall) :
    (decompose cap count xs).modes.length < count := by
  induction count generalizing xs with
  | zero => cases hfailure
  | succ count ih =>
    cases h : sift cap xs with
    | error shortfall =>
      rw [decompose_succ_of_error h]
      exact Nat.succ_pos count
    | ok s =>
      rw [decompose_succ_of_ok h] at hfailure ⊢
      exact Nat.succ_lt_succ (ih hfailure)

end

/-! ## What is left in exact arithmetic -/

section

variable {α : Type} [AddCommGroup α]

theorem getD_minus {xs ys : List α} (h : ys.length = xs.length) (p : ℕ) :
    (minus xs ys).getD p 0 = xs.getD p 0 - ys.getD p 0 := by
  have hlength : (minus xs ys).length = xs.length := length_minus h
  by_cases hp : p < xs.length
  · rw [List.getD_eq_getElem _ _ (hlength ▸ hp), List.getD_eq_getElem _ _ hp,
      List.getD_eq_getElem _ _ (h ▸ hp)]
    exact List.getElem_zipWith
  · rw [List.getD_eq_default _ _ (by omega), List.getD_eq_default _ _ (by omega),
      List.getD_eq_default _ _ (by omega), sub_zero]

/-- At every place the modes and what is left add up to the signal. -/
theorem sum_getD_add_residual {xs : List α} {modes : List (List α)}
    (h : ∀ mode ∈ modes, mode.length = xs.length) (p : ℕ) :
    (modes.map (·.getD p 0)).sum + (residual xs modes).getD p 0 = xs.getD p 0 := by
  induction modes generalizing xs with
  | nil => exact zero_add _
  | cons mode modes ih =>
    obtain ⟨hmode, hmodes⟩ := List.forall_mem_cons.mp h
    have hrest : ∀ m ∈ modes, m.length = (minus xs mode).length := fun m hm ↦
      (hmodes m hm).trans (length_minus hmode).symm
    calc
      ((mode :: modes).map (·.getD p 0)).sum + (residual xs (mode :: modes)).getD p 0 =
          mode.getD p 0 +
            ((modes.map (·.getD p 0)).sum + (residual (minus xs mode) modes).getD p 0) := by
        rw [List.map_cons, List.sum_cons, add_assoc]
        rfl
      _ = mode.getD p 0 + (xs.getD p 0 - mode.getD p 0) := by rw [ih hrest, getD_minus hmode]
      _ = xs.getD p 0 := add_sub_cancel _ _

end

/-! ## Modes with their faults -/

open Signal (modesOf)

section

variable {α : Type} [NatCast α] [Add α] [Sub α] [Mul α] [Div α] [LT α] [DecidableLT α]
  [OfScientific α] [Elementary α] {xs : List α} {count cap : ℤ}

theorem modesOf_of_pos (hcount : 1 ≤ count) (hcap : 1 ≤ cap) :
    modesOf xs count cap =
      (((decompose cap.toNat count.toNat xs).modes.filter (·.capped)).map fun _ ↦ ⟨cap⟩,
        match (decompose cap.toNat count.toNat xs).failure with
        | none => .ok ((decompose cap.toNat count.toNat xs).modes.map (·.mode))
        | some shortfall => .error (.algorithm
            (.mode ((decompose cap.toNat count.toNat xs).modes.length + 1) shortfall))) := by
  unfold modesOf
  rw [if_neg (by omega), if_neg (by omega)]
  cases hfailure : (decompose cap.toNat count.toNat xs).failure with
  | none => simp only [hfailure]
  | some shortfall => simp only [hfailure]

theorem modesOf_eq_ok_iff {ms : List (List α)} :
    (modesOf xs count cap).2 = .ok ms ↔ 1 ≤ count ∧ 1 ≤ cap ∧
      (decompose cap.toNat count.toNat xs).failure = none ∧
        (decompose cap.toNat count.toNat xs).modes.map (·.mode) = ms := by
  by_cases hcount : 1 ≤ count
  · by_cases hcap : 1 ≤ cap
    · rw [modesOf_of_pos hcount hcap]
      simp only [hcount, hcap, true_and]
      split
      · rename_i hfailure
        simp [hfailure]
      · rename_i shortfall hfailure
        simp [hfailure]
    · simp [modesOf, hcap, show ¬count < 1 by omega, show cap < 1 by omega]
  · simp [modesOf, hcount, show count < 1 by omega]

theorem modesOf_eq_error_iff (hcount : 1 ≤ count) (hcap : 1 ≤ cap) {fault : Fault} :
    (modesOf xs count cap).2 = .error fault ↔ ∃ shortfall,
      (decompose cap.toNat count.toNat xs).failure = some shortfall ∧
        fault = .algorithm
          (.mode ((decompose cap.toNat count.toNat xs).modes.length + 1) shortfall) := by
  rw [modesOf_of_pos hcount hcap]
  dsimp only
  split
  · rename_i hfailure
    simp [hfailure]
  · rename_i shortfall hfailure
    simp [hfailure, eq_comm]

theorem modesOf_take {k k' : ℕ} (hk : 1 ≤ k) (hle : k ≤ k') {ms : List (List α)}
    (hms : (modesOf xs k' cap).2 = .ok ms) : (modesOf xs k cap).2 = .ok (ms.take k) := by
  obtain ⟨-, hcap, hfailure, rfl⟩ := modesOf_eq_ok_iff.mp hms
  rw [Int.toNat_natCast] at hfailure ⊢
  have hlength := (decompose_modes cap.toNat k' xs).2 hfailure
  have hshorter := decompose_of_le_length (hle.trans_eq hlength.symm)
  refine modesOf_eq_ok_iff.mpr ⟨by exact_mod_cast hk, hcap, ?_, ?_⟩
  · rw [Int.toNat_natCast, hshorter]
  · rw [Int.toNat_natCast, hshorter, List.map_take]

/-- Every mode has the length of the signal, and it is what sifting makes of what the modes before
it leave. -/
theorem modesOf_modes {k : ℕ} {ms : List (List α)} (hms : (modesOf xs k cap).2 = .ok ms) :
    ms.length = k ∧ (∀ mode ∈ ms, mode.length = xs.length) ∧
      ∀ (j : ℕ) (_ : j < ms.length), (modeOf (residual xs (ms.take j)) cap).2 = .ok ms[j] := by
  obtain ⟨-, -, hfailure, rfl⟩ := modesOf_eq_ok_iff.mp hms
  rw [Int.toNat_natCast] at hfailure ⊢
  obtain ⟨hsize, hlength⟩ := decompose_modes cap.toNat k xs
  refine ⟨by rw [List.length_map, hlength hfailure], List.forall_mem_map.mpr hsize, fun j hj ↦ ?_⟩
  rw [List.length_map] at hj
  rw [← List.map_take, modeOf, sift_residual hj, List.getElem_map]

/-- The mode on which a decomposition fails does not depend on the number of modes asked for. -/
theorem modesOf_fault {k : ℕ} (hk : 1 ≤ k) (hcap : 1 ≤ cap) {fault : Fault}
    (hfault : (modesOf xs k cap).2 = .error fault) :
    ∃ (j : ℕ) (shortfall : Shortfall), fault = .algorithm (.mode j shortfall) ∧
      1 ≤ j ∧ j ≤ k ∧ (∀ k' : ℕ, j ≤ k' → (modesOf xs k' cap).2 = .error fault) ∧
      ∀ k' : ℕ, 1 ≤ k' → k' < j → ∃ ms, (modesOf xs k' cap).2 = .ok ms := by
  obtain ⟨shortfall, hfailure, rfl⟩ := (modesOf_eq_error_iff (by exact_mod_cast hk) hcap).mp hfault
  rw [Int.toNat_natCast] at hfailure ⊢
  have hlength := length_modes_lt_of_failure hfailure
  refine ⟨_, shortfall, rfl, Nat.succ_pos _, hlength, fun k' hk' ↦ ?_, fun k' hpos hk' ↦ ?_⟩
  · have hsame := decompose_of_failure hfailure (Nat.lt_of_succ_le hk')
    refine (modesOf_eq_error_iff (by omega) hcap).mpr ⟨shortfall, ?_, ?_⟩
    · rw [Int.toNat_natCast, hsame, hfailure]
    · rw [Int.toNat_natCast, hsame]
  · have hshorter := decompose_of_le_length (Nat.le_of_lt_succ hk')
    refine ⟨_, modesOf_eq_ok_iff.mpr ⟨by exact_mod_cast hpos, hcap, ?_, rfl⟩⟩
    rw [Int.toNat_natCast, hshorter]

/-- The modes of a decomposition are the first ones of every longer decomposition. Each of them is
as long as the signal, and is sifted from what the modes before it leave. A decomposition fails on
one mode, and then every decomposition fails on it, with the same fault, that goes so far, and no
shorter one fails. In exact arithmetic the modes and what they leave add up to the signal. -/
theorem modesOf_first (xs : List α) (cap : ℤ) {k : ℕ} (hk : 1 ≤ k) :
    (∀ ms, (modesOf xs (k + 1 : ℕ) cap).2 = .ok ms → (modesOf xs k cap).2 = .ok (ms.take k)) ∧
      (∀ ms, (modesOf xs k cap).2 = .ok ms → ms.length = k ∧
        (∀ mode ∈ ms, mode.length = xs.length) ∧
        ∀ (j : ℕ) (_ : j < ms.length), (modeOf (residual xs (ms.take j)) cap).2 = .ok ms[j]) ∧
      (∀ fault, (modesOf xs k cap).2 = .error fault →
        cap < 1 ∧ fault = .signal (.siftsTooFew cap) ∨
          ∃ (j : ℕ) (shortfall : Shortfall), fault = .algorithm (.mode j shortfall) ∧
            1 ≤ j ∧ j ≤ k ∧ (∀ k' : ℕ, j ≤ k' → (modesOf xs k' cap).2 = .error fault) ∧
            ∀ k' : ℕ, 1 ≤ k' → k' < j → ∃ ms, (modesOf xs k' cap).2 = .ok ms) ∧
      ∀ (ys : List ℝ) (ms : List (List ℝ)), (modesOf ys k cap).2 = .ok ms →
        ∀ p, (ms.map (·.getD p 0)).sum + (residual ys ms).getD p 0 = ys.getD p 0 := by
  have hcount : (1 : ℤ) ≤ k := by exact_mod_cast hk
  refine ⟨fun ms hms ↦ modesOf_take hk (Nat.le_succ k) hms, fun ms hms ↦ modesOf_modes hms,
    fun fault hfault ↦ ?_, fun ys ms hms p ↦ sum_getD_add_residual (modesOf_modes hms).2.1 p⟩
  rcases lt_or_ge cap 1 with hcap | hcap
  · rw [modesOf, if_neg (by omega), if_pos hcap] at hfault
    exact .inl ⟨hcap, (Except.error.inj hfault).symm⟩
  · exact .inr (modesOf_fault hk hcap hfault)

end

/-- A signal that goes up and down between two values. -/
def zigzag : List Float := [0, 1, 0, 1, 0, 1]

/-- A zigzag about its mean is a mode, and what it leaves is a constant without extrema. -/
theorem modesOf_zigzag :
    1 ≤ 2 ∧ (modesOf zigzag (2 : ℕ) 2).2 = .error (.algorithm (.mode 2 ⟨.max, 0⟩)) ∧
      (∀ k : ℕ, 2 ≤ k → (modesOf zigzag k 2).2 = .error (.algorithm (.mode 2 ⟨.max, 0⟩))) ∧
      ∃ ms, (modesOf zigzag (1 : ℕ) 2).2 = .ok ms ∧ ms.length = 1 ∧
        (∀ mode ∈ ms, mode.length = 6) ∧
        ∀ (j : ℕ) (_ : j < ms.length), (modeOf (residual zigzag (ms.take j)) 2).2 = .ok ms[j] := by
  have hfailure : (decompose 2 2 zigzag).failure = some ⟨.max, 0⟩ := by decide +kernel
  have hlength : (decompose 2 2 zigzag).modes.length = 1 := by decide +kernel
  have hfault : (modesOf zigzag (2 : ℕ) 2).2 = .error (.algorithm (.mode 2 ⟨.max, 0⟩)) :=
    (modesOf_eq_error_iff (by decide) (by decide)).mpr
      ⟨_, hfailure, congrArg (fun n ↦ Fault.algorithm (.mode (n + 1) ⟨.max, 0⟩)) hlength.symm⟩
  obtain ⟨hcap, -⟩ | ⟨j, shortfall, hsame, -, -, hlater, hearlier⟩ :=
    (modesOf_first zigzag 2 (show 1 ≤ 2 by decide)).2.2.1 _ hfault
  · exact absurd hcap (by decide)
  · obtain ⟨rfl, -⟩ : 2 = j ∧ _ := by simpa using hsame
    obtain ⟨ms, hms⟩ := hearlier 1 le_rfl (by decide)
    exact ⟨by decide, hfault, hlater, ms, hms,
      (modesOf_first zigzag 2 le_rfl).2.1 ms hms⟩

end Sifting

end WaveNotebook
