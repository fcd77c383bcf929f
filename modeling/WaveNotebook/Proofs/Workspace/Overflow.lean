import WaveNotebook.Proofs.Kernel.Finite
import WaveNotebook.Proofs.Number.Numeral
import WaveNotebook.Proofs.Workspace.Failure
import WaveNotebook.Proofs.Workspace.LiteralArgument
import WaveNotebook.Proofs.Workspace.Numeral

/-!
# Numbers that are not finite

Signals and matrices are checked when they are made, and what comes out of them is finite. Two ways
out of the finite numbers remain in a session: a numeral that is too great for a double is read as
an infinity, and a statistic overflows with the sums that it is made of. No number takes another
way, neither from a matrix nor from the number of modes.
-/

namespace WaveNotebook

open Binary64 (code infinityCode)

/-! ## Origins of numbers -/

/-- An infinity that a piece of a text spells. -/
def GreatNumeral (texts : List (List Char)) (x : Float) : Prop :=
  code x = infinityCode ∧
    ∃ text ∈ texts, ∃ piece, piece <:+: text ∧ readNumber? piece = some x

/-- A signal that a variable stood for where a line was run or an expression was evaluated. -/
def Signal.BoundIn (trail : List Workspace) (s : Signal Float) : Prop :=
  ∃ w ∈ trail, ∃ name, w.value? name = some (.signal s)

/-- An entry of an analysis of such a signal whose samples overflow the statistic of its name. -/
def GreatStatistic (trail : List Workspace) (x : Float) : Prop :=
  ∃ (s : Signal Float) (statistic : Statistic) (metrics windowSize : Datum)
    (values : List (String × Float)), s.BoundIn trail ∧ s.analyze metrics windowSize = .ok values ∧
      (statistic.name, x) ∈ values ∧ statistic.Overflows s.samples

/-- An entry is the statistic of its name, and finite unless the samples overflow this statistic.
The peak and the crest factor are finite. -/
structure Statistic.Accounted (samples : List Float) (key : String) (x : Float) : Prop where
  measured : ∃ statistic : Statistic, statistic.name = key ∧ statistic.measure samples = .ok x ∧
    (isFinite x = true ∨ statistic.Overflows samples)
  finite : key = "peak" ∨ key = "crest" → isFinite x = true

/-- Metrics are an analysis of a signal that a variable stood for, and its entries are accounted for
by the samples of this signal. -/
def MetricsAccounted (trail : List Workspace) (values : List (String × Float)) : Prop :=
  ∃ (s : Signal Float) (metrics windowSize : Datum), s.BoundIn trail ∧
    s.analyze metrics windowSize = .ok values ∧
      ∀ entry ∈ values, Statistic.Accounted s.samples entry.1 entry.2

/-- The numbers of a value are finite, but for great numerals and great statistics. -/
def Value.Accounted (texts : List (List Char)) (trail : List Workspace) : Value → Prop
  | .number x => isFinite x = true ∨ GreatNumeral texts x ∨ GreatStatistic trail x
  | .metrics values => MetricsAccounted trail values
  | _ => True

theorem Statistic.accounted_of_measure {samples : List Float}
    (hsamples : ∀ x ∈ samples, isFinite x = true) (hlength : samples.length ≤ 2 ^ 53)
    {statistic : Statistic} {x : Float} (h : statistic.measure samples = .ok x) :
    Accounted samples statistic.name x := by
  have hx : isFinite x = true ∨ statistic.Overflows samples :=
    isFinite_measure hsamples hlength h
  refine ⟨⟨statistic, rfl, h, hx⟩, fun hkey ↦ hx.resolve_right ?_⟩
  cases statistic with
  | peak | crest => exact not_false
  | rms | kurtosis => exact absurd hkey (by decide)

section

variable {texts : List (List Char)} {trail : List Workspace} {values : List (String × Float)}

theorem MetricsAccounted.isFinite_or (h : MetricsAccounted trail values) :
    ∀ entry ∈ values, isFinite entry.2 = true ∨ GreatStatistic trail entry.2 := by
  intro entry hentry
  obtain ⟨s, metrics, windowSize, hs, hanalyze, hentries⟩ := h
  obtain ⟨statistic, hname, -, hx⟩ := (hentries entry hentry).measured
  refine hx.imp_right fun hoverflows ↦
    ⟨s, statistic, metrics, windowSize, values, hs, hanalyze, ?_, hoverflows⟩
  rw [hname]
  exact hentry

theorem admissible_accounted (texts : List (List Char)) (trail : List Workspace) :
    Admissible (MetricsAccounted trail)
      fun x ↦ isFinite x = true ∨ GreatNumeral texts x ∨ GreatStatistic trail x where
  finite _ := .inl
  entry _ h entry hentry := (h.isFinite_or entry hentry).imp_right .inr

theorem Value.accounted_of_holds {v : Value}
    (h : v.Holds (MetricsAccounted trail)
      fun x ↦ isFinite x = true ∨ GreatNumeral texts x ∨ GreatStatistic trail x) :
    v.Accounted texts trail := by
  cases v with
  | number x => exact h
  | metrics values => exact h
  | _ => trivial

/-- What the variables of such a workspace stand for is analysed as it has to be. -/
theorem analyses_accounted {w : Workspace} (hw : w ∈ trail) :
    w.scope.Analyses (MetricsAccounted trail) := by
  intro name s hs hsound hshort metrics windowSize values hvalues
  have hlength : s.samples.length ≤ 2 ^ 53 := hshort.le.trans (by decide)
  refine ⟨s, metrics, windowSize, ⟨w, hw, name, hs⟩, hvalues, fun entry hentry ↦ ?_⟩
  have hreturned := s.analyze_returned metrics windowSize
  rw [hvalues] at hreturned
  obtain ⟨statistic, hname, hx⟩ := hreturned.value entry hentry
  rw [← hname]
  exact Statistic.accounted_of_measure hsound.finite hlength hx

end

/-- A numeral is read as a finite number or as an infinity. -/
theorem code_le_of_readNumber? {piece : List Char} {x : Float} (h : readNumber? piece = some x) :
    code x ≤ infinityCode := by
  obtain ⟨n, -, rfl⟩ := exists_of_readNumber? h
  have hcode : n.magnitudeCode ≤ infinityCode := by
    unfold Numeral.magnitudeCode
    split_ifs
    · exact Nat.zero_le _
    · exact le_rfl
    · exact Nat.zero_le _
    · exact Nat.min_le_right _ _
  exact (Binary64.code_ofCode _ hcode).trans_le hcode

theorem spelled_accounted {texts : List (List Char)} (trail : List Workspace) {text : List Char}
    (htext : text ∈ texts) :
    Spelled (fun x ↦ isFinite x = true ∨ GreatNumeral texts x ∨ GreatStatistic trail x) text := by
  intro piece x hpiece hread
  obtain hlt | heq := Nat.lt_or_eq_of_le (code_le_of_readNumber? hread)
  · exact .inl (decide_eq_true hlt)
  · exact .inr (.inl ⟨heq, text, htext, piece, hpiece, hread⟩)

theorem eq_ok_of_toOption {α β : Type} {r : Except α β} {b : β} (h : r.toOption = some b) :
    r = .ok b := by
  cases r with
  | error a => cases h
  | ok c => rw [Option.some.inj (show some c = some b from h)]

/-- The number that a value is. -/
def Value.number? : Value → Option Float
  | number x => some x
  | _ => none

theorem Value.eq_of_number? {r : Except Fault Value} {x : Float}
    (h : r.toOption.bind Value.number? = some x) : r = .ok (.number x) := by
  obtain ⟨v, hv, hx⟩ := Option.bind_eq_some_iff.mp h
  cases v with
  | number y =>
    obtain rfl := Option.some.inj hx
    exact eq_ok_of_toOption hv
  | _ => cases hx

namespace Workspace

variable {texts : List (List Char)} {trail : List Workspace} {w : Workspace}

/-- A number that a method call gives back has a property of all that its receiver gives back. -/
theorem Sound.number_of_receiver (hw : w.Sound) {M : List (String × Float) → Prop}
    {P : Float → Prop} {text : List Char} {receiver member : String} {args : List Expr}
    {v : Value} {x : Float}
    (hread : Expr.read text = .method receiver member args) (hv : w.value? receiver = some v)
    (hx : (w.evaluate text).1 = .ok (.number x))
    (hcall : ∀ m, (v.kind, m) ∈ MethodTable.standard.entries → ∀ s : Session, s.store.Sound →
      ∀ args, Run.Returns (Value.Holds M P) s (m.call v args w.scope.config)) : P x := by
  have hreturns : Returned (Value.Holds M P) (w.evaluate text).1 := by
    unfold Workspace.evaluate
    rw [hread]
    exact Expr.value_returns_of_receiver hw.store hw.scope hv hcall
  rw [hx] at hreturns
  exact hreturns.value

/-- All numbers of a session are accounted for: those that the variables stand for, those in
metrics and those that expressions give back. Matrices and modes give back finite numbers, and
metrics give back their entries. -/
theorem Given.accounted (hw : Given texts trail w) :
    (∀ name v, w.value? name = some v → v.Accounted texts trail) ∧
      (∀ text room v, (w.evaluate text room).1 = .ok v →
        v.Accounted (texts ++ [text]) (trail ++ [w])) ∧
      ∀ text room receiver member args v x, Expr.read text = .method receiver member args →
        w.value? receiver = some v → (w.evaluate text room).1 = .ok (.number x) →
          (v.kind = .matrix ∨ v.kind = .modes → isFinite x = true) ∧
            ∀ values, v = .metrics values →
              (∃ key, (key, x) ∈ values) ∧ (isFinite x = true ∨ GreatStatistic trail x) := by
  have hsound := hw.reachable.sound
  have hholds : ∀ texts' trail', (∀ text ∈ texts, text ∈ texts') → (∀ w' ∈ trail, w' ∈ trail') →
      w.Holds (MetricsAccounted trail')
        fun x ↦ isFinite x = true ∨ GreatNumeral texts' x ∨ GreatStatistic trail' x :=
    fun texts' trail' htexts htrail ↦ hw.holds (admissible_accounted texts' trail')
      (fun text htext ↦ spelled_accounted trail' (htexts text htext))
      fun w' hw' ↦ analyses_accounted (htrail w' hw')
  refine ⟨fun name v hv ↦ ?_, fun text room v hv ↦ ?_, ?_⟩
  · exact Value.accounted_of_holds
      (w.scope.resolve_holds (hholds texts trail (fun _ ↦ id) fun _ ↦ id) hv)
  · rw [w.evaluate_of_ok hv] at hv
    have hreturned := hsound.evaluate_returned
      (admissible_accounted (texts ++ [text]) (trail ++ [w]))
      (analyses_accounted (List.mem_append_right _ (List.mem_singleton_self w)))
      (hholds _ _ (fun _ ↦ List.mem_append_left _) fun _ ↦ List.mem_append_left _)
      (spelled_accounted _ (List.mem_append_right _ (List.mem_singleton_self text)))
    rw [hv] at hreturned
    exact Value.accounted_of_holds hreturned.value
  · intro text room receiver member args v x hread hv hx
    rw [w.evaluate_of_ok hx] at hx
    have hbound := w.scope.resolve_holds (hholds texts trail (fun _ ↦ id) fun _ ↦ id) hv
    refine ⟨fun hkind ↦ ?_, ?_⟩
    · have hfinite : v.Holds (fun _ ↦ True) (isFinite · = true) := by
        obtain hkind | hkind := hkind
        · cases v <;> cases hkind
          trivial
        · cases v <;> cases hkind
          exact hbound
      exact hsound.number_of_receiver (P := (isFinite · = true)) hread hv hx fun m hm s hs args ↦
        m.call_returns_of_isCollection (fun _ ↦ id) hs hm hkind hfinite args _
    · rintro values rfl
      obtain ⟨key, hentry⟩ : ∃ key, (key, x) ∈ values :=
        hsound.number_of_receiver (M := fun _ ↦ True) (P := fun x ↦ ∃ key, (key, x) ∈ values)
          hread hv hx fun m hm s _ args ↦
            m.call_returns_of_metrics hm (fun entry hentry ↦ ⟨entry.1, hentry⟩) args _
      exact ⟨⟨key, hentry⟩, MetricsAccounted.isFinite_or hbound _ hentry⟩

/-- A matrix, in a session that also has an infinity. -/
def matrixBesideInfinity : Workspace :=
  ((new .default .standard).execute "m = matrix([[7]])
x = 1e999".toList).2

theorem accounted_matrixBesideInfinity : ∃ trail,
    Given ["m = matrix([[7]])\nx = 1e999".toList] trail matrixBesideInfinity ∧
      (∃ x, (matrixBesideInfinity.evaluate "x".toList).1 = .ok (.number x) ∧ isFinite x = false ∧
        (GreatNumeral ["m = matrix([[7]])\nx = 1e999".toList, "x".toList] x ∨
          GreatStatistic (trail ++ [matrixBesideInfinity]) x)) ∧
      (matrixBesideInfinity.evaluate "m.get(0,0)".toList).1 = .ok (.number 7.0) ∧
        isFinite 7.0 = true := by
  have hgiven : Given ["m = matrix([[7]])\nx = 1e999".toList] _ matrixBesideInfinity :=
    .execute (.new Config.accepted_default) _
  obtain ⟨-, hevaluate, hmethod⟩ := Given.accounted hgiven
  refine ⟨_, hgiven, ?_⟩
  constructor
  · have hx : (matrixBesideInfinity.evaluate "x".toList).1 = .ok (.number Binary64.infinity) :=
      Value.eq_of_number? (by decide +kernel)
    have hinfinite : isFinite Binary64.infinity = false := by decide +kernel
    refine ⟨_, hx, hinfinite, (hevaluate _ none _ hx).resolve_left ?_⟩
    rw [hinfinite]
    exact Bool.false_ne_true
  · have hm : matrixBesideInfinity.value? "m" = some (.matrix ⟨0⟩) := by
      have hhandle : (matrixBesideInfinity.value? "m").bind Value.handle? = some ⟨0⟩ := by
        decide +kernel
      obtain ⟨v, hv, hhandle⟩ := Option.bind_eq_some_iff.mp hhandle
      rw [hv, Value.eq_of_handle? hhandle]
    have hget : (matrixBesideInfinity.evaluate "m.get(0,0)".toList).1 = .ok (.number 7.0) :=
      Value.eq_of_number? (by decide +kernel)
    have hzero : Expr.IsArgument "0".toList :=
      Expr.isArgument_of_readNumber? (show readNumber? "0".toList = some 0.0 by decide +kernel)
    have hread : Expr.read (methodCall "m".toList "get".toList ["0".toList, "0".toList]) = _ :=
      read_methodCall rfl rfl (by simpa using hzero)
    exact ⟨hget, (hmethod _ none _ _ _ _ _ hread hm hget).1 (.inl rfl)⟩

/-- Not every number of a session is finite, nor is every statistic of a signal. -/
theorem not_all_finite :
    ¬(∀ texts trail w, Given texts trail w → ∀ text x, (w.evaluate text).1 = .ok (.number x) →
        isFinite x = true) ∧
      ¬∀ (s : Signal Float), s.Sound → ∀ metrics values, s.analyze metrics .null = .ok values →
        ∀ entry ∈ values, isFinite entry.2 = true := by
  have hinfinite : isFinite Binary64.infinity = false := by decide +kernel
  constructor
  · intro h
    have hx : ((new .default .standard).evaluate "1e999".toList).1 =
        .ok (.number Binary64.infinity) := Value.eq_of_number? (by decide +kernel)
    exact Bool.false_ne_true
      (hinfinite.symm.trans (h _ _ _ (.new Config.accepted_default) _ _ hx))
  · intro h
    have hsound : Signal.Sound ⟨[1e200], 1.0, []⟩ := by
      exact ⟨by decide +kernel, by decide +kernel, by decide +kernel⟩
    have hanalyze : Signal.analyze ⟨[1e200], 1.0, []⟩ (.text "rms") .null =
        .ok [("rms", Binary64.infinity)] :=
      eq_ok_of_toOption (by decide +kernel)
    exact Bool.false_ne_true
      (hinfinite.symm.trans (h _ hsound _ _ hanalyze _ (List.mem_singleton_self _)))

end Workspace

end WaveNotebook
