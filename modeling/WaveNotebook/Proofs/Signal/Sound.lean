import WaveNotebook.Method.Standard
import WaveNotebook.Proofs.Conversion
import WaveNotebook.Proofs.Kernel.Sifting
import WaveNotebook.Proofs.Record

/-!
# Sound signals

A signal is sound if its samples are finite and its rate is a positive finite number. Every
generator and every operation on sound signals yields a sound signal or fails with an expected
fault, since all of them end in `Signal.derive`. Modes are sound signals with the length and the
rate of the signal that they come from, and the keys of metrics are names of statistics.
-/

namespace WaveNotebook

structure Signal.Sound (s : Signal Float) : Prop where
  finite : ∀ x ∈ s.samples, isFinite x = true
  rate_finite : isFinite s.rate = true
  rate_pos : 0.0 < s.rate

/-- At least one signal, all of them sound, of one length and at one rate. -/
structure SoundModes (signals : List (Signal Float)) : Prop where
  nonempty : signals ≠ []
  sound : ∀ s ∈ signals, s.Sound
  alike : ∀ s ∈ signals, ∀ t ∈ signals, s.size = t.size ∧ s.rate = t.rate

/-- Keys without repetition, all of them names of statistics. -/
structure SoundMetrics (values : List (String × Float)) : Prop where
  nodup : (Record.keys values).Nodup
  known : ∀ key ∈ Record.keys values, key ∈ ["rms", "peak", "crest", "kurtosis"]

namespace Signal

theorem derive_ends {s : Signal Float} (hfinite : isFinite s.rate = true) (hpos : 0.0 < s.rate)
    (samples : List Float) :
    Yields (fun t ↦ t.Sound ∧ t.samples = samples ∧ t.rate = s.rate) (s.derive samples) := by
  unfold derive
  split
  · rename_i h
    exact .ok ⟨⟨List.all_eq_true.mp h, hfinite, hpos⟩, rfl, rfl⟩
  · exact .error rfl

theorem Sound.derive {s : Signal Float} (hs : s.Sound) (samples : List Float) :
    Yields Sound (s.derive samples) :=
  (derive_ends hs.rate_finite hs.rate_pos samples).mono fun _ ht ↦ ht.1

theorem ofSamples_yields {rate : Float} (hfinite : isFinite rate = true) (hpos : 0.0 < rate)
    (samples : List Float) (attributes : Record) :
    Yields Sound (ofSamples samples rate attributes) := by
  unfold ofSamples
  exact (derive_ends (s := ⟨[], rate, attributes⟩) hfinite hpos samples).mono fun _ ht ↦ ht.1

/-! ## Generators -/

theorem tone_yields (wave : Waveform) (frequency duration rate amplitude phase : Datum) :
    Yields Sound (tone wave frequency duration rate amplitude phase) := by
  unfold tone
  apply (finiteOf_yields _ _).bind
  intro f _
  apply (finiteOf_yields _ _).bind
  intro a _
  apply (finiteOf_yields _ _).bind
  intro p _
  apply (durationOf_yields _).bind
  intro d _
  apply (rateOf_yields _).bind
  intro r hr
  apply (sampleCount_yields _ _).bind
  intro n _
  apply (places_yields _).bind
  intro steps _
  exact ofSamples_yields hr.1 hr.2 _ _

end Signal

namespace Sweep

theorem fieldsOf_yields (options : Record) : Yields (fun _ ↦ True) (fieldsOf options) := by
  unfold fieldsOf
  refine Ends.foldlM trivial fun fields option _ _ ↦ ?_
  dsimp only
  split
  · exact .ok trivial
  · exact .error rfl

theorem ofData_yields (start stop duration method rate : Datum) :
    Yields (fun _ ↦ True) (ofData start stop duration method rate) := by
  unfold ofData
  apply (parameter_yields _ _).bind
  intro f₀ _
  apply (parameter_yields _ _).bind
  intro f₁ _
  apply (parameter_yields _ _).bind
  intro d _
  apply (parameter_yields _ _).bind
  intro r _
  apply (SweepMethod.ofDatum_yields _).bind
  intro m _
  exact .ok trivial

theorem ofOptions_yields (options : Record) (rate : Datum) :
    Yields (fun _ ↦ True) (ofOptions options rate) := by
  unfold ofOptions
  apply (fieldsOf_yields options).bind
  intro fields _
  dsimp only
  split
  · exact .error rfl
  · exact ofData_yields _ _ _ _ _

theorem samples_yields (s : Sweep) (times : List Float) :
    Yields (fun _ ↦ True) (s.samples times) := by
  unfold samples
  dsimp only
  split
  · exact .ok trivial
  · split
    · exact .error rfl
    · split
      · exact .error rfl
      · split
        · exact .error rfl
        · split
          · exact .ok trivial
          · exact .ok trivial

theorem signal_yields (s : Sweep) : Yields Signal.Sound s.signal := by
  unfold signal
  apply (durationOf_yields _).bind
  intro duration _
  apply (Signal.rateOf_yields _).bind
  intro rate hrate
  apply (sampleCount_yields _ _).bind
  intro n _
  apply (places_yields _).bind
  intro steps _
  apply (samples_yields _ _).bind
  intro samples _
  split
  · exact .error rfl
  · exact Signal.ofSamples_yields hrate.1 hrate.2 _ _

end Sweep

/-! ## Operations -/

namespace Signal

variable {s : Signal Float} (hs : s.Sound)

include hs

theorem Sound.multiply (factor : Datum) : Yields Sound (s.multiply factor) := by
  unfold Signal.multiply
  apply factor.finite?_ends.numeric.bind
  intro o _
  split
  · exact hs.derive _
  · exact .error rfl

theorem Sound.add (t : Signal Float) : Yields Sound (s.add t) := by
  unfold Signal.add
  split
  · exact .error rfl
  · split
    · exact .error rfl
    · exact hs.derive _

theorem Sound.window (name : Datum) (length : Option Datum) :
    Yields Sound (s.window name length) := by
  unfold Signal.window
  dsimp only
  refine (hasLength_ends s _).numeric.bind fun b _ ↦ ?_
  split
  · apply (Window.ofDatum_yields name).bind
    intro w _
    exact hs.derive _
  · exact .error rfl

theorem Sound.modes {found : List (List Float)} (hfound : found ≠ [])
    (hlength : ∀ samples ∈ found, samples.length = s.size) :
    Yields SoundModes (found.mapM s.derive) := by
  have hderive : ∀ samples ∈ found,
      Yields (fun t ↦ t.Sound ∧ t.size = s.size ∧ t.rate = s.rate) (s.derive samples) := by
    intro samples hsamples
    apply (derive_ends hs.rate_finite hs.rate_pos samples).mono
    intro t ht
    exact ⟨ht.1, by rw [size, ht.2.1, hlength samples hsamples], ht.2.2⟩
  apply (Ends.mapM hderive).mono
  intro signals hsignals
  have hsound : ∀ t ∈ signals, t.Sound ∧ t.size = s.size ∧ t.rate = s.rate := by
    intro t ht
    obtain ⟨_, _, h⟩ := hsignals.2 t ht
    exact h
  refine ⟨?_, fun t ht ↦ (hsound t ht).1, fun t ht t' ht' ↦ ?_⟩
  · rintro rfl
    exact hfound (List.length_eq_zero_iff.mp hsignals.1.symm)
  · obtain ⟨-, hsize, hrate⟩ := hsound t ht
    obtain ⟨-, hsize', hrate'⟩ := hsound t' ht'
    exact ⟨hsize.trans hsize'.symm, hrate.trans hrate'.symm⟩

/-- Modes come from a count of at least one, so there is at least one of them. -/
theorem Sound.decompose (method count : Datum) (cap : Int) :
    Yields SoundModes (s.decompose method count cap).2 := by
  unfold Signal.decompose
  have hcount := modeCountOf_yields method count
  split
  · rename_i fault h
    rw [h] at hcount
    exact .error hcount.fault
  · rename_i n _
    dsimp only
    unfold modesOf
    split
    · exact .error rfl
    · rename_i hn
      split
      · exact .error rfl
      · have hmodes := Sifting.decompose_modes cap.toNat n.toNat s.samples
        dsimp only
        split
        · rename_i hfailure
          have hlength := hmodes.2 hfailure
          refine hs.modes (fun hnil ↦ ?_) fun samples hsamples ↦ ?_
          · rw [List.map_eq_nil_iff.mp hnil, List.length_nil] at hlength
            omega
          · obtain ⟨sifted, hsifted, rfl⟩ := List.mem_map.mp hsamples
            exact hmodes.1 sifted hsifted
        · exact .error rfl

end Signal

end WaveNotebook
