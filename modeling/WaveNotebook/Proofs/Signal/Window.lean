import WaveNotebook.Proofs.Kernel.Window
import WaveNotebook.Signal.Analysis

/-!
# Windowed signals

A window of the right length scales each sample by a coefficient between zero and one. So over the
real numbers a windowed signal has the length and the rate of the signal and no greater samples, and
since a window is the same from both ends, it does not matter whether the samples are reversed
before or after.
-/

namespace WaveNotebook

namespace Window

theorem ofName?_name (w : Window) : ofName? w.name = some w := by
  cases w <;> rfl

theorem exists_of_mem_names {name : String} (hname : name ∈ names) :
    ∃ w : Window, ofName? name = some w ∧ ofDatum (.text name) = .ok w := by
  obtain ⟨w, -, rfl⟩ := List.mem_map.mp hname
  refine ⟨w, w.ofName?_name, ?_⟩
  have hfound : lookupName ofName? (.text w.name) = .ok (some w) :=
    congrArg Except.ok w.ofName?_name
  rw [ofDatum, hfound]
  rfl

/-- Coefficients are given unless there is no room for them. -/
theorem coefficientsOf_eq {name : Datum} {w : Window} (hname : ofDatum name = .ok w) (n : ℕ) :
    (coefficientsOf name n : Except Fault (List ℝ)) =
      match w.sizeFault? n with
      | some fault => .error (.numeric fault)
      | none => .ok (w.coefficients n) := by
  unfold coefficientsOf
  rw [hname]
  rfl

namespace IsTaper

variable {samples curve : List ℝ}

/-- Coefficients between zero and one make no sample greater. -/
theorem forall₂_abs_le (h : IsTaper samples.length curve) :
    List.Forall₂ (fun y x ↦ |y| ≤ |x|) (List.zipWith (· * ·) samples curve) samples := by
  obtain ⟨hlength, -, hnonneg, hle⟩ := h
  induction samples generalizing curve with
  | nil => exact .nil
  | cons x samples ih =>
    match curve, hlength with
    | a :: curve, hlength =>
      rw [List.zipWith_cons_cons]
      refine .cons ?_ (ih (Nat.succ.inj hlength) (fun y hy ↦ hnonneg y (List.mem_cons_of_mem _ hy))
        fun y hy ↦ hle y (List.mem_cons_of_mem _ hy))
      rw [abs_mul, abs_of_nonneg (hnonneg a List.mem_cons_self)]
      exact mul_le_of_le_one_right (abs_nonneg x) (hle a List.mem_cons_self)

theorem zipWith_reverse (h : IsTaper samples.length curve) :
    List.zipWith (· * ·) samples.reverse curve = (List.zipWith (· * ·) samples curve).reverse := by
  rw [List.reverse_zipWith h.length_eq.symm, h.reverse_eq]

end IsTaper

end Window

namespace Signal

/-- The samples in the opposite order. -/
def reversed {α : Type} (s : Signal α) : Signal α :=
  { s with samples := s.samples.reverse }

theorem size_reversed {α : Type} (s : Signal α) : s.reversed.size = s.size :=
  List.length_reverse

/-- A length that is not given, or the number of samples. -/
def IsLengthOf {α : Type} (s : Signal α) (length : Option Datum) : Prop :=
  length = none ∨ length = some (.integer s.size)

/-- In exact arithmetic no sample is refused. -/
theorem window_eq {s : Signal ℝ} {name : Datum} {w : Window} (hname : Window.ofDatum name = .ok w)
    {length : Option Datum} (hlength : s.IsLengthOf length) :
    s.window name length =
      .ok { s with samples := List.zipWith (· * ·) s.samples (w.coefficients s.size) } := by
  have hfits : s.hasLength (length.getD .null) = .ok true := by
    obtain rfl | rfl := hlength
    · rfl
    · exact congrArg Except.ok (beq_self_eq_true _)
  have hfinite : (List.zipWith (· * ·) s.samples (w.coefficients s.size)).all isFinite = true :=
    List.all_eq_true.mpr fun _ _ ↦ rfl
  unfold window
  dsimp only
  rw [hfits, hname]
  exact if_pos hfinite

/-- The window of every known name has as many coefficients as it is asked for, which lie between
zero and one and are the same from both ends, and none of them comes from a division by zero. In
exact arithmetic a windowed signal keeps its length and its rate, none of its samples grows in
absolute value, and the windowed signal of the reversed samples is the reversed windowed signal. -/
theorem window_contracts {name : String} (hname : name ∈ Window.names) :
    ∃ w : Window, Window.ofName? name = some w ∧
      (∀ n : ℕ, Window.IsTaper n (w.coefficients n) ∧
        (Window.coefficientsOf (.text name) n : Except Fault (List ℝ)) =
          (match w.sizeFault? n with
          | some fault => .error (.numeric fault)
          | none => .ok (w.coefficients n)) ∧
        ∀ divide : ℝ → ℝ → ℝ, (∀ x y, y ≠ 0 → divide x y = x / y) →
          Window.coefficientsWith divide w n = w.coefficients n) ∧
      ∀ (s : Signal ℝ) (length : Option Datum), s.IsLengthOf length →
        ∃ t, s.window (.text name) length = .ok t ∧ t.size = s.size ∧ t.rate = s.rate ∧
          List.Forall₂ (fun y x ↦ |y| ≤ |x|) t.samples s.samples ∧
          s.reversed.window (.text name) length = .ok t.reversed := by
  obtain ⟨w, hfound, hdatum⟩ := Window.exists_of_mem_names hname
  refine ⟨w, hfound, fun n ↦ ⟨w.isTaper_coefficients n, Window.coefficientsOf_eq hdatum n,
    fun divide hdivide ↦ Window.coefficientsWith_eq hdivide w n⟩, fun s length hlength ↦ ?_⟩
  have htaper : Window.IsTaper s.samples.length (w.coefficients s.size) :=
    w.isTaper_coefficients s.size
  refine ⟨_, window_eq hdatum hlength, ?_, rfl, htaper.forall₂_abs_le, ?_⟩
  · exact htaper.forall₂_abs_le.length_eq
  · have hreversed : s.reversed.IsLengthOf length := by
      rwa [IsLengthOf, size_reversed]
    rw [window_eq hdatum hreversed, size_reversed]
    exact congrArg (fun samples ↦ Except.ok { s with samples := samples }) htaper.zipWith_reverse

/-- A window whose ends are zero, on a signal whose samples are not the same from both ends. -/
theorem window_contracts_blackman :
    "blackman" ∈ Window.names ∧ Window.IsTaper 3 (Window.blackman.coefficients 3) ∧
      ∃ t, (⟨[2, -4, 3], 8, []⟩ : Signal ℝ).window (.text "blackman") (some (.integer 3)) = .ok t ∧
        t.size = 3 ∧ t.rate = 8 ∧
        List.Forall₂ (fun y x ↦ |y| ≤ |x|) t.samples [2, -4, 3] ∧
        (⟨[3, -4, 2], 8, []⟩ : Signal ℝ).window (.text "blackman") (some (.integer 3)) =
          .ok t.reversed := by
  have hname : "blackman" ∈ Window.names := by decide
  obtain ⟨w, hfound, hcurve, hsignal⟩ := window_contracts hname
  obtain rfl : Window.blackman = w := Option.some.inj hfound
  have hlength : (⟨[2, -4, 3], 8, []⟩ : Signal ℝ).IsLengthOf (some (.integer 3)) := .inr rfl
  exact ⟨hname, (hcurve 3).1, hsignal ⟨[2, -4, 3], 8, []⟩ (some (.integer 3)) hlength⟩

end Signal

end WaveNotebook
