import WaveNotebook.Proofs.Outcome
import WaveNotebook.Signal.Analysis

/-!
# Conversions of plain data

A statement converts plain data to numbers, integers, names and lists of names. Here is what
each conversion gives, and that its faults are ones a statement may have: no conversion looks
for a place, a key or a member that its datum could lack.
-/

namespace WaveNotebook

namespace Datum

theorem doubleOf_ends (n : Int) : Ends NumericFault.Expected (fun _ ↦ True) (doubleOf n) :=
  .elim rfl fun _ _ ↦ trivial

theorem toFloat?_ends (d : Datum) : Ends NumericFault.Expected (fun _ ↦ True) d.toFloat? := by
  unfold toFloat?
  split
  · exact .ok trivial
  · exact (doubleOf_ends _).map fun _ _ ↦ trivial
  · exact .ok trivial

theorem finite?_ends (d : Datum) :
    Ends NumericFault.Expected (fun o ↦ ∀ x, o = some x → Binary64.isFinite x = true)
      d.finite? := by
  unfold finite?
  apply d.toFloat?_ends.bind
  intro o _
  refine .ok fun x hx ↦ ?_
  exact (Option.filter_eq_some_iff.mp hx).2

theorem finite?_eq_ok_some_iff {d : Datum} {x : Float} :
    d.finite? = .ok (some x) ↔ d.toFloat? = .ok (some x) ∧ Binary64.isFinite x = true := by
  have hbind : d.finite? = d.toFloat? >>= fun o ↦ return o.filter Binary64.isFinite := rfl
  rw [hbind, bind_eq_ok_iff]
  constructor
  · rintro ⟨o, ho, hfilter⟩
    obtain ⟨rfl, hfinite⟩ := Option.filter_eq_some_iff.mp (Except.ok.inj hfilter)
    exact ⟨ho, hfinite⟩
  · rintro ⟨ho, hfinite⟩
    exact ⟨_, ho, congrArg Except.ok (Option.filter_some_pos hfinite)⟩

theorem integralPart_ends (x : Float) :
    Ends NumericFault.Expected (fun _ ↦ True) (integralPart x) := by
  unfold integralPart
  split
  · exact .error rfl
  · split
    · exact .ok trivial
    · exact .error rfl

theorem integerPart_ends (d : Datum) :
    Ends NumericFault.Expected (fun _ ↦ True) d.integerPart := by
  unfold integerPart
  split
  case h_2 s =>
    cases readInteger? s.toList with
    | some n => exact .ok trivial
    | none => exact .error rfl
  all_goals first
    | exact .ok trivial
    | exact integralPart_ends _
    | exact .error rfl

theorem integer?_ends (d : Datum) : Ends NumericFault.Expected (fun _ ↦ True) d.integer? := by
  unfold integer?
  apply d.integerPart_ends.bind
  intro n _
  split <;> exact .ok trivial

theorem truthOfArray_ends (bs : List Bool) :
    Ends NumericFault.Expected (fun _ ↦ True) (truthOfArray bs) := by
  unfold truthOfArray
  split
  · exact .ok trivial
  · exact .error rfl

theorem comparedText_ends (d : Datum) :
    Ends NumericFault.Expected (fun _ ↦ True) d.comparedText := by
  unfold comparedText
  split
  · exact .ok trivial
  · exact (truthOfArray_ends _).bind fun _ _ ↦ .ok trivial
  · exact .ok trivial

theorem items_ends (d : Datum) :
    Ends (fun f : TypeFault ↦ (NumericFault.type f).Expected) (fun _ ↦ True) d.items := by
  unfold items
  split
  case h_4 shape cells =>
    unfold rowsOfArray
    split
    · exact .error rfl
    · exact .ok trivial
    · exact .ok trivial
  all_goals first
    | exact .ok trivial
    | exact .error rfl

end Datum

/-- A name is found in a text alone. -/
theorem lookupName_yields {β : Type} (find : String → Option β) (d : Datum) :
    Yields (fun o ↦ ∀ b, o = some b → ∃ s, d = .text s ∧ find s = some b) (lookupName find d) := by
  unfold lookupName
  split
  · exact .error rfl
  · rename_i s _
    exact .ok fun b hb ↦ ⟨s, rfl, hb⟩
  · exact .ok fun b hb ↦ nomatch hb

theorem allocationFault?_expected {count : Nat} {element : String} {f : NumericFault}
    (h : allocationFault? count element = some f) : f.Expected := by
  unfold allocationFault? at h
  split at h
  · cases h
    rfl
  · split at h
    · cases h
      rfl
    · split at h
      · cases h
        rfl
      · cases h

theorem places_yields (count : Nat) : Yields (fun _ ↦ True) (places count) := by
  unfold places
  split
  · exact .ok trivial
  · rename_i f hf
    split
    · exact .error rfl
    · exact .error (Fault.expected_numeric (allocationFault?_expected hf))

theorem sampleCount_yields (duration rate : Float) :
    Yields (fun _ ↦ True) (sampleCount duration rate) := by
  unfold sampleCount
  dsimp only
  split
  · exact .ok trivial
  · exact .error rfl

section

variable (name : String) (d : Datum)

theorem finiteOf_yields : Yields (fun _ ↦ True) (finiteOf name d) := by
  unfold finiteOf
  apply d.finite?_ends.numeric.bind
  intro o _
  split
  · exact .ok trivial
  · exact .error rfl

theorem durationOf_yields : Yields (fun _ ↦ True) (durationOf d) := by
  unfold durationOf
  apply d.finite?_ends.numeric.bind
  intro o _
  split
  · split
    · exact .error rfl
    · exact .ok trivial
  · exact .error rfl

theorem SweepMethod.ofDatum_yields : Yields (fun _ ↦ True) (SweepMethod.ofDatum d) := by
  unfold SweepMethod.ofDatum
  apply d.comparedText_ends.numeric.bind
  intro o _
  split
  · exact .ok trivial
  · exact .error rfl

theorem Sweep.parameter_yields : Yields (fun _ ↦ True) (Sweep.parameter name d) := by
  unfold Sweep.parameter
  apply d.finite?_ends.numeric.bind
  intro o _
  split
  · exact .ok trivial
  · exact .error rfl

/-- A rate is a positive finite number. -/
theorem Signal.rateOf_yields :
    Yields (fun x ↦ Binary64.isFinite x = true ∧ 0.0 < x) (Signal.rateOf d) := by
  unfold Signal.rateOf
  apply d.finite?_ends.numeric.bind
  intro o ho
  split
  · rename_i x
    split
    · rename_i hx
      exact .ok ⟨ho x rfl, hx⟩
    · exact .error rfl
  · exact .error rfl

theorem Window.ofDatum_yields : Yields (fun _ ↦ True) (Window.ofDatum d) := by
  unfold Window.ofDatum
  apply (lookupName_yields _ d).bind
  intro o _
  split
  · exact .ok trivial
  · exact .error rfl

theorem Wavelet.ofDatum_yields : Yields (fun _ ↦ True) (Wavelet.ofDatum d) := by
  unfold Wavelet.ofDatum
  apply (lookupName_yields _ d).bind
  intro o _
  split
  · exact .ok trivial
  · exact .error rfl

end

namespace Signal

theorem hasLength_ends (s : Signal Float) (d : Datum) :
    Ends NumericFault.Expected (fun _ ↦ True) (s.hasLength d) := by
  unfold hasLength
  split
  case h_5 => exact Datum.truthOfArray_ends _
  all_goals exact .ok trivial

theorem positiveInteger_yields (d : Datum) (fault : SignalFault) :
    Yields (fun _ ↦ True) (positiveInteger d fault) := by
  unfold positiveInteger
  split
  · exact .error rfl
  · apply d.integer?_ends.numeric.bind
    intro o _
    split
    · split
      · exact .ok trivial
      · exact .error rfl
    · exact .error rfl

theorem modeCountOf_yields (method count : Datum) :
    Yields (fun _ ↦ True) (modeCountOf method count) := by
  unfold modeCountOf
  apply method.comparedText_ends.numeric.bind
  intro text _
  split
  · exact .error rfl
  · split
    · exact .error rfl
    · apply count.integer?_ends.numeric.bind
      intro o _
      split
      · exact .ok trivial
      · exact .error rfl

theorem metricNames_yields (d : Datum) : Yields (fun _ ↦ True) (metricNames d) := by
  unfold metricNames
  split
  · exact .ok trivial
  · exact d.items_ends.mapError fun _ h ↦ h

end Signal

end WaveNotebook
