import WaveNotebook.Proofs.Grid.Sound
import WaveNotebook.Proofs.Signal.Sound

/-!
# Spectra, wavelet rows and statistics of sound signals

The transforms of a signal are sound grids or sound signals. Statistics are collected under
their names, each of them once, and a statistic that a signal does not have is passed over.
The methods of signals read their arguments and options first, and fail with expected faults.
-/

namespace WaveNotebook

/-! ## Statistics -/

theorem Statistic.measure_yields (statistic : Statistic) (samples : List Float) :
    Yields (fun _ ↦ True) (statistic.measure samples) := by
  unfold measure
  split
  · exact .error rfl
  · split
    · exact .ok trivial
    · exact .ok trivial
    · unfold crestOf
      dsimp only
      split
      · exact .error rfl
      · exact .ok trivial
    · unfold kurtosisOf
      dsimp only
      split
      · exact .error rfl
      · split
        · exact .error rfl
        · split
          · exact .error rfl
          · exact .ok trivial

theorem Statistic.ofName?_eq_some_iff {name : String} {statistic : Statistic} :
    ofName? name = some statistic ↔ statistic.name = name := by
  constructor
  · intro h
    unfold ofName? at h
    simpa using List.find?_some h
  · rintro rfl
    cases statistic <;> rfl

theorem Statistic.ofName?_mem {name : String} {statistic : Statistic}
    (h : ofName? name = some statistic) : name ∈ ["rms", "peak", "crest", "kurtosis"] := by
  rw [← ofName?_eq_some_iff.mp h]
  cases statistic <;> decide

namespace Signal

theorem addStatistic_yields (samples : List Float) {found : List (String × Float)}
    (hfound : SoundMetrics found) (name : Datum) :
    Yields SoundMetrics (addStatistic samples found name) := by
  unfold addStatistic
  apply (lookupName_yields _ name).bind
  intro o ho
  split
  · exact .ok hfound
  · rename_i key statistic
    obtain ⟨s, -, hs⟩ := ho _ rfl
    have hmeasure := statistic.measure_yields samples
    have hkey : key ∈ ["rms", "peak", "crest", "kurtosis"] := by
      obtain ⟨st, hst, heq⟩ := Option.map_eq_some_iff.mp hs
      cases heq
      exact Statistic.ofName?_mem hst
    split
    · refine .ok ⟨Record.nodup_keys_put hfound.nodup key _, fun k hk ↦ ?_⟩
      obtain rfl | hk := Record.mem_keys_put.mp hk
      · exact hkey
      · exact hfound.known k hk
    · exact .ok hfound
    · rename_i fault _ h
      rw [h] at hmeasure
      exact .error hmeasure.fault

theorem analyze_yields (s : Signal Float) (metrics windowSize : Datum) :
    Yields SoundMetrics (s.analyze metrics windowSize) := by
  unfold analyze statistics
  have hempty : SoundMetrics [] := ⟨List.nodup_nil, fun _ hk ↦ nomatch hk⟩
  have hstatistics : Yields SoundMetrics
      (do (← metricNames metrics).foldlM (addStatistic s.samples) []) := by
    apply (metricNames_yields metrics).bind
    intro names _
    exact .foldlM hempty fun found name _ hfound ↦ addStatistic_yields _ hfound name
  split
  all_goals dsimp only
  all_goals split
  · exact .error rfl
  · exact (positiveInteger_yields _ _).bind fun _ _ ↦ .error rfl
  · exact hstatistics
  · exact (positiveInteger_yields _ _).bind fun _ _ ↦ hstatistics

/-! ## Transforms -/

theorem spectrum_yields (s : Signal Float) : Yields (fun _ ↦ True) s.spectrum := by
  unfold spectrum Fourier.realSpectrum Fourier.spectrum Fourier.transform
  split
  · exact .ok trivial
  · exact .error rfl

theorem magnitudeSpectrum_yields (s : Signal Float) :
    Yields (fun _ ↦ True) s.magnitudeSpectrum := by
  unfold magnitudeSpectrum Fourier.magnitudes Fourier.spectrum Fourier.transform
  split
  · exact .ok trivial
  · exact .error rfl

theorem waveletTransform_yields (s : Signal Float) (wavelet scales : Datum) :
    Yields Grid.Sound (s.waveletTransform wavelet scales) := by
  unfold waveletTransform
  apply (positiveInteger_yields _ _).bind
  intro levels _
  split
  · exact .error rfl
  · split
    · rename_i fault h
      exact .error (Fault.expected_numeric (allocationFault?_expected h))
    · apply (Wavelet.ofDatum_yields wavelet).bind
      intro w _
      split
      · rename_i fault h
        obtain ⟨level, -, h⟩ := List.exists_of_findSome?_eq_some h
        exact .error (Fault.expected_numeric (allocationFault?_expected h))
      · exact Grid.ofRows_yields _

end Signal

/-! ## Methods -/

namespace Method

theorem numberArg_yields (method : String) (a : Argument) :
    Yields (fun x ↦ a = .value (.number x)) (numberArg method a) := by
  unfold numberArg
  split
  · exact .ok rfl
  · exact .error rfl

theorem indexArg_yields (method : String) (a : Argument) :
    Yields (fun i ↦ ∃ x, a = .value (.number x) ∧ i = Binary64.truncate x) (indexArg method a) := by
  unfold indexArg
  apply (numberArg_yields method a).bind
  intro x hx
  split
  · exact .ok ⟨x, hx, rfl⟩
  · exact .error rfl

theorem optionArgs_yields (method : String) (known : List String) (args : List Argument) :
    Yields (fun _ ↦ True) (optionArgs method known args) := by
  unfold optionArgs
  split
  · exact .ok trivial
  · split
    · exact .error rfl
    · exact .ok trivial
  · exact .error rfl

theorem integerOption_yields (method key : String) (d : Datum) :
    Yields (fun _ ↦ True) (integerOption method key d) := by
  unfold integerOption
  split
  · exact .ok trivial
  · split
    · exact .ok trivial
    · exact .error rfl
  · exact .error rfl

theorem integerOption?_yields (method key : String) (options : Record) :
    Yields (fun _ ↦ True) (integerOption? method key options) := by
  unfold integerOption?
  split
  · exact (integerOption_yields _ _ _).map fun _ _ ↦ trivial
  · exact .ok trivial

theorem decomposition_yields (args : List Argument) :
    Yields (fun _ ↦ True) (decomposition args) := by
  unfold decomposition
  apply (optionArgs_yields _ _ _).bind
  intro options _
  apply (integerOption?_yields _ _ _).bind
  intro count _
  exact .ok trivial

theorem metricsOption_yields (d : Datum) : Yields (fun _ ↦ True) (metricsOption d) := by
  unfold metricsOption
  split
  · exact .ok trivial
  · split
    · exact .ok trivial
    · exact .error rfl
  · exact .error rfl

theorem windowSizeOption_yields (d : Option Datum) :
    Yields (fun _ ↦ True) (windowSizeOption d) := by
  unfold windowSizeOption
  split
  · exact .ok trivial
  · exact .ok trivial
  · exact integerOption_yields _ _ _

section

variable (s : Signal Float) (args : List Argument)

theorem signalFourier_yields : Yields Grid.Sound (signalFourier s) := by
  unfold signalFourier
  exact s.spectrum_yields.bind fun zs _ ↦ Grid.ofRows_yields _

theorem signalWavelet_yields : Yields Grid.Sound (signalWavelet s args) := by
  unfold signalWavelet
  apply (optionArgs_yields _ _ _).bind
  intro options _
  apply (integerOption?_yields _ _ _).bind
  intro scales _
  exact s.waveletTransform_yields _ _

theorem signalAnalyze_yields : Yields SoundMetrics (signalAnalyze s args) := by
  unfold signalAnalyze
  apply (optionArgs_yields _ _ _).bind
  intro options _
  split
  · exact .error rfl
  · exact .error rfl
  · apply (metricsOption_yields _).bind
    intro names _
    apply (windowSizeOption_yields _).bind
    intro size _
    exact s.analyze_yields _ _

variable {s} (hs : s.Sound)

include hs

theorem signalSpectrum_yields : Yields Signal.Sound (signalSpectrum s) := by
  unfold signalSpectrum
  apply s.magnitudeSpectrum_yields.bind
  intro magnitudes _
  exact Signal.ofSamples_yields hs.rate_finite hs.rate_pos _ _

theorem signalWindow_yields : Yields Signal.Sound (signalWindow s args) := by
  unfold signalWindow
  split
  · exact hs.window _ _
  · apply (optionArgs_yields _ _ _).bind
    intro options _
    split
    · exact .error rfl
    · apply (integerOption?_yields _ _ _).bind
      intro length _
      exact hs.window _ _

end

end Method

end WaveNotebook
