import WaveNotebook.Kernel.Sifting
import WaveNotebook.Proofs.Outcome

/-!
# Lengths in a decomposition

Every envelope, every step of sifting and every mode has as many entries as the data. A
decomposition that does not stop early has the number of modes that it was asked for.
-/

namespace WaveNotebook.Sifting

variable {α : Type} [NatCast α] [Add α] [Sub α] [Mul α] [Div α] [LT α] [DecidableLT α]

theorem envelope_ends (kind : Extremum) (xs : List α) :
    Ends (fun _ ↦ True) (fun ys ↦ ys.length = xs.length) (envelope kind xs) := by
  unfold envelope
  dsimp only
  split
  · exact .error trivial
  · exact .ok (by simp)

theorem meanEnvelope_ends (xs : List α) :
    Ends (fun _ ↦ True) (fun ys ↦ ys.length = xs.length) (meanEnvelope xs) := by
  unfold meanEnvelope
  apply (envelope_ends .max xs).bind
  intro upper hupper
  apply (envelope_ends .min xs).bind
  intro lower hlower
  exact .ok (by rw [List.length_zipWith, hupper, hlower, Nat.min_self])

omit [NatCast α] [Add α] [Mul α] [Div α] [LT α] [DecidableLT α] in
theorem length_minus {xs ys : List α} (h : ys.length = xs.length) :
    (minus xs ys).length = xs.length := by
  rw [minus, List.length_zipWith, h, Nat.min_self]

theorem step_ends (xs : List α) :
    Ends (fun _ ↦ True) (fun ys ↦ ys.length = xs.length) (step xs) := by
  unfold step
  exact (meanEnvelope_ends xs).map fun ys hys ↦ length_minus hys

variable [OfScientific α] [Elementary α]

theorem sift_ends (cap : Nat) (xs : List α) :
    Ends (fun _ ↦ True) (fun s ↦ s.mode.length = xs.length) (sift cap xs) := by
  induction cap generalizing xs with
  | zero => exact .ok rfl
  | succ cap ih =>
    unfold sift
    apply (step_ends xs).bind
    intro next hnext
    split
    · exact .ok hnext
    · exact (ih next).mono fun s hs ↦ hs.trans hnext

theorem decompose_succ_of_ok {cap count : Nat} {xs : List α} {s : Sifted α}
    (h : sift cap xs = .ok s) :
    decompose cap (count + 1) xs =
      ⟨s :: (decompose cap count (minus xs s.mode)).modes,
        (decompose cap count (minus xs s.mode)).failure⟩ := by
  rw [decompose, h]

theorem decompose_succ_of_error {cap count : Nat} {xs : List α} {shortfall : Shortfall}
    (h : sift cap xs = .error shortfall) :
    decompose cap (count + 1) xs = ⟨[], some shortfall⟩ := by
  rw [decompose, h]

/-- The modes of a decomposition are as long as the data, and without a failure there are as many
as were asked for. -/
theorem decompose_modes (cap count : Nat) (xs : List α) :
    (∀ s ∈ (decompose cap count xs).modes, s.mode.length = xs.length) ∧
      ((decompose cap count xs).failure = none →
        (decompose cap count xs).modes.length = count) := by
  induction count generalizing xs with
  | zero => simp [decompose]
  | succ count ih =>
    have hsift := sift_ends cap xs
    unfold decompose
    cases h : sift cap xs with
    | error shortfall => simp
    | ok s =>
      rw [h] at hsift
      have hrest := ih (minus xs s.mode)
      rw [length_minus hsift.value] at hrest
      dsimp only
      constructor
      · intro t ht
        obtain rfl | ht := List.mem_cons.mp ht
        · exact hsift.value
        · exact hrest.1 t ht
      · intro hfailure
        rw [List.length_cons, hrest.2 hfailure]

end WaveNotebook.Sifting
