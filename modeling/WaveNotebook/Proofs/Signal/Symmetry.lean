import WaveNotebook.Proofs.Kernel.Symmetry
import WaveNotebook.Proofs.Signal.Modes

/-!
# Decompositions of reversed and of negated signals

Sifting has no preferred direction and no preferred sign. All that it makes of a signal is made from
differences, from the mean of the two envelopes, and from the size of a change. A map of signals
that commutes with the first two and keeps the third commutes with every step of sifting, and so
with each mode and with what the mode leaves. Reversal and the change of signs are such maps in
exact arithmetic.
-/

namespace WaveNotebook.Sifting

open Signal (modesOf)

/-- The same result of sifting, with another mode. -/
def Sifted.map {α β : Type} (f : List α → List β) (s : Sifted α) : Sifted β :=
  ⟨f s.mode, s.capped⟩

section

variable {α : Type} [NatCast α] [Add α] [Sub α] [Mul α] [Div α] [LT α] [DecidableLT α]

/-- A map of signals that sifting commutes with, up to which of the envelopes falls short. -/
structure IsSymmetry (related : Shortfall → Shortfall → Prop) (f : List α → List α) : Prop where
  minus {xs ys : List α} (h : ys.length = xs.length) : minus (f xs) (f ys) = f (minus xs ys)
  dot (xs : List α) : dot (f xs) (f xs) = dot xs xs
  meanEnvelope (xs : List α) : EndsAlike related f (meanEnvelope xs) (meanEnvelope (f xs))

/-- Two faults of a decomposition on the same mode. -/
def OnSameMode (related : Shortfall → Shortfall → Prop) (fault fault' : Fault) : Prop :=
  ∃ j shortfall shortfall', related shortfall shortfall' ∧
    fault = .algorithm (.mode j shortfall) ∧ fault' = .algorithm (.mode j shortfall')

namespace IsSymmetry

variable {related : Shortfall → Shortfall → Prop} {f : List α → List α}
  (hf : IsSymmetry related f)

include hf

theorem step (xs : List α) : EndsAlike related f (step xs) (step (f xs)) := by
  refine (hf.meanEnvelope xs).map fun mean hmean ↦ hf.minus ?_
  have hlength := meanEnvelope_ends xs
  rw [hmean] at hlength
  exact hlength.value

variable [OfScientific α] [Elementary α]

/-- A change is as great as its image. -/
theorem settled {before after : List α} (h : before.length = after.length) :
    settled (f before) (f after) = settled before after := by
  simp only [Sifting.settled, hf.minus h, hf.dot]

theorem sift (cap : ℕ) (xs : List α) :
    EndsAlike related (Sifted.map f) (sift cap xs) (sift cap (f xs)) := by
  induction cap generalizing xs with
  | zero => exact .ok (Sifted.mk xs true)
  | succ cap ih =>
    unfold Sifting.sift
    refine (hf.step xs).bind fun next hnext ↦ ?_
    have hlength := step_ends xs
    rw [hnext] at hlength
    rw [hf.settled hlength.value.symm]
    split
    · exact .ok (Sifted.mk next false)
    · exact ih next

/-- The image of a signal has the images of the modes, and its decomposition stops where that of
the signal does. -/
theorem decompose (cap count : ℕ) (xs : List α) :
    (decompose cap count (f xs)).modes = (decompose cap count xs).modes.map (Sifted.map f) ∧
      Option.Rel related (decompose cap count xs).failure (decompose cap count (f xs)).failure := by
  induction count generalizing xs with
  | zero => exact ⟨rfl, .none⟩
  | succ count ih =>
    have hends := sift_ends cap xs
    cases hsift : Sifting.sift cap xs with
    | error shortfall =>
      have halike := hf.sift cap xs
      rw [hsift] at halike
      generalize himage : Sifting.sift cap (f xs) = r at halike
      cases halike with
      | @error _ shortfall' hrelated =>
        rw [decompose_succ_of_error hsift, decompose_succ_of_error himage]
        exact ⟨rfl, .some hrelated⟩
    | ok s =>
      have halike := hf.sift cap xs
      rw [hsift] at halike hends
      generalize himage : Sifting.sift cap (f xs) = r at halike
      cases halike with
      | ok s =>
        rw [decompose_succ_of_ok hsift, decompose_succ_of_ok himage]
        dsimp only [Sifted.map]
        rw [hf.minus hends.value]
        obtain ⟨hmodes, hfailure⟩ := ih (Sifting.minus xs s.mode)
        exact ⟨congrArg _ hmodes, hfailure⟩

variable {count cap : ℤ}

theorem modesOf (hcount : 1 ≤ count) (hcap : 1 ≤ cap) (xs : List α) :
    (modesOf (f xs) count cap).1 = (modesOf xs count cap).1 ∧
      EndsAlike (OnSameMode related) (List.map f) (modesOf xs count cap).2
        (modesOf (f xs) count cap).2 := by
  obtain ⟨hmodes, hfailure⟩ := hf.decompose cap.toNat count.toNat xs
  rw [modesOf_of_pos hcount hcap, modesOf_of_pos hcount hcap, hmodes]
  constructor
  · rw [List.filter_map, List.map_map]
    rfl
  · generalize (Sifting.decompose cap.toNat count.toNat (f xs)).failure = failure' at hfailure
    generalize (Sifting.decompose cap.toNat count.toNat xs).failure = failure at hfailure
    cases hfailure with
    | none =>
      have himage : ((Sifting.decompose cap.toNat count.toNat xs).modes.map
          (Sifted.map f)).map (·.mode) =
          ((Sifting.decompose cap.toNat count.toNat xs).modes.map (·.mode)).map f := by
        rw [List.map_map, List.map_map]
        rfl
      dsimp only
      rw [himage]
      exact .ok _
    | some hrelated =>
      dsimp only
      rw [List.length_map]
      exact .error ⟨_, _, _, hrelated, rfl, rfl⟩

end IsSymmetry

end

/-! ## Directions and signs -/

section

variable {α : Type} [Field α] [LinearOrder α]

theorem isSymmetry_reverse : IsSymmetry Eq (List.reverse (α := α)) where
  minus h := minus_reverse h
  dot xs := dot_reverse xs
  meanEnvelope xs := by
    rw [meanEnvelope_reverse]
    cases meanEnvelope xs with
    | ok mean => exact .ok mean
    | error shortfall => exact .error rfl

/-- The sign decides which envelope is the upper one, and so which of them falls short first. -/
theorem isSymmetry_negated [IsStrictOrderedRing α] :
    IsSymmetry (fun _ _ ↦ True) (negated (α := α)) where
  minus _ := minus_negated _ _
  dot xs := dot_negated xs
  meanEnvelope xs := meanEnvelope_negated xs

end

/-- In exact arithmetic a decomposition has no preferred direction and no preferred sign. The
reversed signal has the reversed modes, the same notices, and if there are too few extrema the same
fault. The negated signal has the negated modes and the same notices, and if it fails it fails on
the same mode. -/
theorem modesOf_symmetric (xs : List ℝ) {count cap : ℤ} (hcount : 1 ≤ count) (hcap : 1 ≤ cap) :
    modesOf xs.reverse count cap =
        ((modesOf xs count cap).1, (modesOf xs count cap).2.map (List.map List.reverse)) ∧
      (modesOf (negated xs) count cap).1 = (modesOf xs count cap).1 ∧
      ((∃ modes, (modesOf xs count cap).2 = .ok modes ∧
          (modesOf (negated xs) count cap).2 = .ok (modes.map negated)) ∨
        ∃ j shortfall shortfall',
          (modesOf xs count cap).2 = .error (.algorithm (.mode j shortfall)) ∧
          (modesOf (negated xs) count cap).2 = .error (.algorithm (.mode j shortfall'))) := by
  obtain ⟨hnotices, hreversed⟩ := isSymmetry_reverse.modesOf hcount hcap xs
  obtain ⟨hnotices', hnegated⟩ := isSymmetry_negated.modesOf hcount hcap xs
  refine ⟨Prod.ext hnotices ?_, hnotices', ?_⟩
  · refine (hreversed.mono fun fault fault' h ↦ ?_).eq_map
    obtain ⟨j, shortfall, shortfall', rfl, rfl, rfl⟩ := h
    rfl
  · generalize (modesOf (negated xs) count cap).2 = r' at hnegated
    generalize (modesOf xs count cap).2 = r at hnegated ⊢
    cases hnegated with
    | ok modes => exact .inl ⟨modes, rfl, rfl⟩
    | error h =>
      obtain ⟨j, shortfall, shortfall', -, rfl, rfl⟩ := h
      exact .inr ⟨j, shortfall, shortfall', rfl, rfl⟩

/-- Extrema of one height have an envelope of this height. -/
theorem meanEnvelope_alternating :
    meanEnvelope ([0, 1, 0, 1, 0, 1] : List ℝ) = .ok (List.replicate 6 (1 / 2)) := by
  have hupper : envelope .max ([0, 1, 0, 1, 0, 1] : List ℝ) = .ok (List.replicate 6 1) := by
    norm_num [envelope, extrema, extremaFrom, Extremum.holds, List.range, List.range.loop,
      envelopeAt, weigh, weight, squaredDistance, List.lookup_cons, List.replicate]
    exact ⟨rfl, rfl, rfl, rfl, rfl⟩
  have hlower : envelope .min ([0, 1, 0, 1, 0, 1] : List ℝ) = .ok (List.replicate 6 0) := by
    norm_num [envelope, extrema, extremaFrom, Extremum.holds, List.range, List.range.loop,
      envelopeAt, weigh, weight, squaredDistance, List.lookup_cons, List.replicate]
    exact ⟨rfl, rfl, rfl, rfl, rfl⟩
  unfold meanEnvelope
  rw [hupper, hlower]
  norm_num [Bind.bind, Except.bind, List.replicate]
  rfl

theorem sift_alternating : sift 1 ([0, 1, 0, 1, 0, 1] : List ℝ) =
    .ok ⟨[-(1 / 2), 1 / 2, -(1 / 2), 1 / 2, -(1 / 2), 1 / 2], true⟩ := by
  have hstep : step ([0, 1, 0, 1, 0, 1] : List ℝ) =
      .ok [-(1 / 2), 1 / 2, -(1 / 2), 1 / 2, -(1 / 2), 1 / 2] := by
    unfold step
    rw [meanEnvelope_alternating]
    norm_num [Functor.map, Except.map, minus, List.replicate]
  have hsettled : settled ([0, 1, 0, 1, 0, 1] : List ℝ)
      [-(1 / 2), 1 / 2, -(1 / 2), 1 / 2, -(1 / 2), 1 / 2] = false := by
    have hdot : dot (minus ([-(1 / 2), 1 / 2, -(1 / 2), 1 / 2, -(1 / 2), 1 / 2] : List ℝ)
        [0, 1, 0, 1, 0, 1]) (minus [-(1 / 2), 1 / 2, -(1 / 2), 1 / 2, -(1 / 2), 1 / 2]
        [0, 1, 0, 1, 0, 1]) = 6 / 4 := by
      norm_num [dot, sum, minus]
    have hroot : (0.05 : ℝ) ≤ Real.sqrt (6 / 4) := Real.le_sqrt_of_sq_le (by norm_num)
    unfold settled
    dsimp only
    rw [hdot, decide_eq_false_iff_not, not_lt]
    exact hroot
  unfold sift
  rw [hstep]
  dsimp only [Bind.bind, Except.bind]
  rw [hsettled]
  rfl

/-- The extrema of alternating values have level envelopes, and what is left of the values when the
mean of these is taken away is the mode. -/
theorem modesOf_alternating : modesOf ([0, 1, 0, 1, 0, 1] : List ℝ) 1 1 =
    ([⟨1⟩], .ok [[-(1 / 2), 1 / 2, -(1 / 2), 1 / 2, -(1 / 2), 1 / 2]]) := by
  have hdecompose : decompose 1 1 ([0, 1, 0, 1, 0, 1] : List ℝ) =
      ⟨[⟨[-(1 / 2), 1 / 2, -(1 / 2), 1 / 2, -(1 / 2), 1 / 2], true⟩], none⟩ := by
    rw [decompose_succ_of_ok sift_alternating]
    rfl
  rw [modesOf_of_pos le_rfl le_rfl]
  simp only [Int.toNat_one]
  rw [hdecompose]
  rfl

/-- Alternating values, and the one mode of these values reversed and negated. -/
theorem modesOf_symmetric_alternating :
    let xs : List ℝ := [0, 1, 0, 1, 0, 1]
    let mode : List ℝ := [-(1 / 2), 1 / 2, -(1 / 2), 1 / 2, -(1 / 2), 1 / 2]
    (1 : ℤ) ≤ 1 ∧ modesOf xs 1 1 = ([⟨1⟩], .ok [mode]) ∧
      modesOf xs.reverse 1 1 = ([⟨1⟩], .ok [mode.reverse]) ∧
      modesOf (negated xs) 1 1 = ([⟨1⟩], .ok [negated mode]) := by
  intro xs mode
  have hmodes : modesOf xs 1 1 = ([⟨1⟩], .ok [mode]) := modesOf_alternating
  obtain ⟨hreversed, hnotices, hnegated⟩ := modesOf_symmetric xs (le_refl (1 : ℤ)) le_rfl
  rw [hmodes] at hreversed hnotices hnegated
  refine ⟨le_rfl, hmodes, hreversed, Prod.ext hnotices ?_⟩
  obtain ⟨modes, hok, hnegated⟩ | ⟨_, _, _, hfail, -⟩ := hnegated
  · cases hok
    exact hnegated
  · cases hfail

end WaveNotebook.Sifting
