import Mathlib.Algebra.Order.Group.Nat
import WaveNotebook.Proofs.Signal.Sound

/-!
# Numbers of samples

A generator makes only as many samples as there is room for, and no operation on a signal makes more
samples than the signal has. So the signals of a session are short: their lengths are far below the
whole numbers that doubles skip.
-/

namespace WaveNotebook

/-- A fault, or a value with a property. -/
abbrev Returned {α : Type} (post : α → Prop) (r : Except Fault α) : Prop :=
  Ends (fun _ ↦ True) post r

theorem Returned.self {α : Type} (r : Except Fault α) : Returned (r = .ok ·) r := by
  cases r with
  | ok a => exact .ok rfl
  | error e => exact .error trivial

/-- A signal of no more samples than there is room for. -/
def Signal.Short (s : Signal Float) : Prop :=
  s.samples.length < roomLimit

/-! ## Generators -/

theorem places_returned (count : ℕ) : Returned (·.length < roomLimit) (places count) := by
  unfold places
  split
  · rename_i hfault
    refine .ok ?_
    unfold allocationFault? at hfault
    rw [List.length_map, List.length_range]
    split_ifs at hfault with hmost hbytes hroom
    exact Nat.lt_of_not_le hroom
  · split
    · exact .error trivial
    · exact .error trivial

namespace Signal

theorem derive_returned (s : Signal Float) (samples : List Float) :
    Returned (·.samples = samples) (s.derive samples) := by
  unfold derive
  split
  · exact .ok rfl
  · exact .error trivial

theorem ofSamples_returned {samples : List Float} (h : samples.length < roomLimit) (rate : Float)
    (attributes : Record) : Returned Short (ofSamples samples rate attributes) := by
  unfold ofSamples
  refine (derive_returned _ samples).mono fun s hs ↦ ?_
  rwa [Short, hs]

theorem tone_returned (wave : Waveform) (frequency duration rate amplitude phase : Datum) :
    Returned Short (tone wave frequency duration rate amplitude phase) := by
  unfold tone
  refine (Returned.self _).bind fun f _ ↦ (Returned.self _).bind fun a _ ↦ ?_
  refine (Returned.self _).bind fun p _ ↦ (Returned.self _).bind fun d _ ↦ ?_
  refine (Returned.self _).bind fun r _ ↦ (Returned.self _).bind fun n _ ↦ ?_
  refine (places_returned _).bind fun steps hsteps ↦ ofSamples_returned ?_ _ _
  rwa [List.length_map]

end Signal

namespace Sweep

theorem samples_returned (s : Sweep) (times : List Float) :
    Returned (·.length = times.length) (s.samples times) := by
  unfold samples
  dsimp only
  split
  · exact .ok (List.length_map _)
  · split_ifs
    · exact .error trivial
    · exact .error trivial
    · exact .error trivial
    · exact .ok (List.length_map _)
    · exact .ok (List.length_map _)

theorem signal_returned (s : Sweep) : Returned Signal.Short s.signal := by
  unfold signal
  refine (Returned.self _).bind fun d _ ↦ (Returned.self _).bind fun r _ ↦ ?_
  refine (Returned.self _).bind fun n _ ↦ (places_returned _).bind fun steps hsteps ↦ ?_
  refine (samples_returned _ _).bind fun samples hsamples ↦ ?_
  split
  · exact .error trivial
  · refine Signal.ofSamples_returned ?_ _ _
    rwa [hsamples, List.length_map]

end Sweep

/-! ## Operations -/

theorem Fourier.length_radix2_le {β : Type} [Add β] [Sub β] [Mul β] (twiddle : ℕ → ℕ → β)
    (xs : List β) : (radix2 twiddle xs).length ≤ xs.length := by
  unfold radix2 butterfly
  split
  · exact le_rfl
  · -- the two halves are as long as the factors that turn them
    simp only [List.length_append, List.length_zipWith, List.length_map, List.length_range]
    omega

namespace Signal

variable {s : Signal Float}

theorem magnitudeSpectrum_returned (s : Signal Float) :
    Returned (·.length ≤ s.samples.length) s.magnitudeSpectrum := by
  unfold magnitudeSpectrum Fourier.magnitudes Fourier.spectrum Fourier.transform
  split
  · refine .ok ?_
    rw [List.length_map]
    refine (Fourier.length_radix2_le _ _).trans ?_
    rw [List.length_map]
  · exact .error trivial

variable (hs : s.Short)

include hs

theorem Short.derive {samples : List Float} (h : samples.length ≤ s.samples.length) :
    Returned Short (s.derive samples) :=
  (derive_returned s samples).mono fun t ht ↦ by
    rw [Short, ht]
    exact h.trans_lt hs

theorem Short.multiply (factor : Datum) : Returned Short (s.multiply factor) := by
  unfold Signal.multiply
  refine (Returned.self _).bind fun o _ ↦ ?_
  split
  · exact hs.derive (List.length_map _).le
  · exact .error trivial

theorem Short.add (t : Signal Float) : Returned Short (s.add t) := by
  unfold Signal.add
  split
  · exact .error trivial
  · split
    · exact .error trivial
    · refine hs.derive ?_
      rw [List.length_zipWith]
      exact Nat.min_le_left _ _

theorem Short.window (name : Datum) (length : Option Datum) :
    Returned Short (s.window name length) := by
  unfold Signal.window
  dsimp only
  refine (Returned.self _).bind fun b _ ↦ ?_
  split
  · refine (Returned.self _).bind fun w _ ↦ ?_
    unfold applyWindow
    refine hs.derive ?_
    rw [List.length_zipWith]
    exact Nat.min_le_left _ _
  · exact .error trivial

/-- Modes are as long as the signal. -/
theorem Short.modes {found : List (List Float)}
    (hfound : ∀ samples ∈ found, samples.length = s.samples.length) :
    Returned (fun signals ↦ signals.length = found.length ∧ ∀ t ∈ signals, t.Short)
      (found.mapM s.derive) := by
  refine (Ends.mapM fun samples hsamples ↦ hs.derive (hfound samples hsamples).le).mono ?_
  intro signals hsignals
  refine ⟨hsignals.1, fun t ht ↦ ?_⟩
  obtain ⟨_, _, h⟩ := hsignals.2 t ht
  exact h

end Signal

end WaveNotebook
