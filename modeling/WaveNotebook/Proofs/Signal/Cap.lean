import WaveNotebook.Proofs.Signal.Modes

/-!
# The cap of sifting

Sifting ends in one of three ways: a step changes the signal by less than the threshold, a step
fails for lack of extrema, or so many steps have been made as the cap allows. The first two are the
same with a greater cap. So they are for a mode of a decomposition, and as the modes before it leave
the same, for a whole decomposition in which no mode has hit the cap.
-/

namespace WaveNotebook.Sifting

variable {α : Type} [NatCast α] [Add α] [Sub α] [Mul α] [Div α] [LT α] [DecidableLT α]
  [OfScientific α] [Elementary α]

/-! ## Steps -/

/-- So many steps of sifting lead from one signal to another one, and each of them changes it by at
least the threshold. -/
inductive Unsettled : ℕ → List α → List α → Prop
  | zero (xs : List α) : Unsettled 0 xs xs
  | succ {k : ℕ} {xs next ys : List α} (hstep : step xs = .ok next)
      (hchange : settled xs next = false) (h : Unsettled k next ys) : Unsettled (k + 1) xs ys

/-- The ways in which sifting with a cap can end. -/
inductive Ending (cap : ℕ) (xs : List α) : Except Shortfall (Sifted α) → Prop
  | settles {k : ℕ} {last mode : List α} (hk : k < cap) (h : Unsettled k xs last)
      (hstep : step last = .ok mode) (hchange : settled last mode = true) :
      Ending cap xs (.ok ⟨mode, false⟩)
  | fails {k : ℕ} {last : List α} {shortfall : Shortfall} (hk : k < cap)
      (h : Unsettled k xs last) (hstep : step last = .error shortfall) :
      Ending cap xs (.error shortfall)
  | capped {mode : List α} (h : Unsettled cap xs mode) : Ending cap xs (.ok ⟨mode, true⟩)

/-- What sifting does with its first step. -/
theorem sift_succ (cap : ℕ) (xs : List α) : sift (cap + 1) xs =
    match step xs with
    | .error shortfall => .error shortfall
    | .ok next => if settled xs next then .ok ⟨next, false⟩ else sift cap next := by
  rw [sift]
  cases step xs with
  | error shortfall => rfl
  | ok next => rfl

theorem Ending.succ {cap : ℕ} {xs next : List α} {r : Except Shortfall (Sifted α)}
    (hstep : step xs = .ok next) (hchange : settled xs next = false) (h : Ending cap next r) :
    Ending (cap + 1) xs r := by
  cases h with
  | settles hk h hlast hmode =>
    exact .settles (Nat.succ_lt_succ hk) (.succ hstep hchange h) hlast hmode
  | fails hk h hlast => exact .fails (Nat.succ_lt_succ hk) (.succ hstep hchange h) hlast
  | capped h => exact .capped (.succ hstep hchange h)

theorem ending_sift (cap : ℕ) (xs : List α) : Ending cap xs (sift cap xs) := by
  induction cap generalizing xs with
  | zero => exact .capped (.zero xs)
  | succ cap ih =>
    rw [sift_succ]
    split
    · rename_i shortfall hstep
      exact .fails (Nat.succ_pos cap) (.zero xs) hstep
    · rename_i next hstep
      split
      · rename_i hchange
        exact .settles (Nat.succ_pos cap) (.zero xs) hstep hchange
      · rename_i hchange
        exact (ih next).succ hstep (Bool.eq_false_iff.mpr hchange)

/-- Steps that do not settle are not seen by the rest of the sifting. -/
theorem Unsettled.sift_add {k : ℕ} {xs ys : List α} (h : Unsettled k xs ys) (rest : ℕ) :
    sift (rest + k) xs = sift rest ys := by
  induction h with
  | zero xs => rfl
  | succ hstep hchange _ ih =>
    rw [← Nat.add_assoc, sift_succ, hstep]
    dsimp only
    rw [hchange, ← ih]
    rfl

/-- Behind fewer steps than the cap allows, at least one of them is left. -/
theorem Unsettled.exists_sift_eq {k cap : ℕ} {xs ys : List α} (h : Unsettled k xs ys)
    (hk : k < cap) : ∃ rest, sift cap xs = sift (rest + 1) ys := by
  obtain ⟨rest, rfl⟩ := Nat.exists_eq_add_of_lt hk
  refine ⟨rest, ?_⟩
  rw [show k + rest + 1 = rest + 1 + k by omega]
  exact h.sift_add (rest + 1)

/-- A signal and a cap admit one ending only. -/
theorem Ending.sift_eq {cap : ℕ} {xs : List α} {r : Except Shortfall (Sifted α)}
    (h : Ending cap xs r) : sift cap xs = r := by
  cases h with
  | settles hk hsteps hstep hchange =>
    obtain ⟨rest, hrest⟩ := hsteps.exists_sift_eq hk
    rw [hrest, sift_succ, hstep]
    exact if_pos hchange
  | fails hk hsteps hstep =>
    obtain ⟨rest, hrest⟩ := hsteps.exists_sift_eq hk
    rw [hrest, sift_succ, hstep]
  | capped hsteps =>
    have hrest := hsteps.sift_add 0
    rwa [Nat.zero_add] at hrest

theorem sift_eq_iff {cap : ℕ} {xs : List α} {r : Except Shortfall (Sifted α)} :
    sift cap xs = r ↔ Ending cap xs r :=
  ⟨fun h ↦ h ▸ ending_sift cap xs, Ending.sift_eq⟩

/-! ## Greater caps -/

theorem sift_of_le_of_ok {cap cap' : ℕ} {xs : List α} {s : Sifted α} (hle : cap ≤ cap')
    (h : sift cap xs = .ok s) (huncapped : s.capped = false) : sift cap' xs = .ok s := by
  cases sift_eq_iff.mp h with
  | settles hk hsteps hstep hchange =>
    exact Ending.sift_eq (.settles (hk.trans_le hle) hsteps hstep hchange)
  | capped hsteps => cases huncapped

theorem sift_of_le_of_error {cap cap' : ℕ} {xs : List α} {shortfall : Shortfall} (hle : cap ≤ cap')
    (h : sift cap xs = .error shortfall) : sift cap' xs = .error shortfall := by
  cases sift_eq_iff.mp h with
  | fails hk hsteps hstep => exact Ending.sift_eq (.fails (hk.trans_le hle) hsteps hstep)

/-- A decomposition none of whose modes hits the cap is the same with a greater one, also if it
fails. -/
theorem decompose_of_le {cap cap' count : ℕ} {xs : List α} (hle : cap ≤ cap')
    (huncapped : ∀ s ∈ (decompose cap count xs).modes, s.capped = false) :
    decompose cap' count xs = decompose cap count xs := by
  induction count generalizing xs with
  | zero => rfl
  | succ count ih =>
    cases h : sift cap xs with
    | error shortfall =>
      rw [decompose_succ_of_error h, decompose_succ_of_error (sift_of_le_of_error hle h)]
    | ok s =>
      rw [decompose_succ_of_ok h] at huncapped
      obtain ⟨hfirst, hrest⟩ := List.forall_mem_cons.mp huncapped
      rw [decompose_succ_of_ok h, decompose_succ_of_ok (sift_of_le_of_ok hle h hfirst), ih hrest]

/-! ## Notices -/

open Signal (modesOf)

theorem modeOf_of_ok {cap : ℤ} {xs : List α} {s : Sifted α} (h : sift cap.toNat xs = .ok s) :
    modeOf xs cap = (if s.capped then [⟨cap⟩] else [], .ok s.mode) := by
  rw [modeOf, h]

theorem modeOf_of_error {cap : ℤ} {xs : List α} {shortfall : Shortfall}
    (h : sift cap.toNat xs = .error shortfall) :
    modeOf xs cap = ([], .error (.algorithm (.extrema shortfall))) := by
  rw [modeOf, h]

theorem modeOf_of_le {m m' : ℤ} {xs : List α} (hle : m ≤ m') (h : (modeOf xs m).1 = []) :
    modeOf xs m' = modeOf xs m := by
  have hcaps : m.toNat ≤ m'.toNat := Int.toNat_le_toNat hle
  cases hsift : sift m.toNat xs with
  | error shortfall =>
    rw [modeOf_of_error hsift, modeOf_of_error (sift_of_le_of_error hcaps hsift)]
  | ok s =>
    rw [modeOf_of_ok hsift] at h ⊢
    cases hcapped : s.capped with
    | false =>
      rw [modeOf_of_ok (sift_of_le_of_ok hcaps hsift hcapped), hcapped]
      rfl
    | true =>
      rw [hcapped] at h
      cases h

theorem modesOf_of_le {m m' count : ℤ} {xs : List α} (hm : 1 ≤ m) (hle : m ≤ m')
    (h : (modesOf xs count m).1 = []) : modesOf xs count m' = modesOf xs count m := by
  rcases lt_or_ge count 1 with hcount | hcount
  · rw [modesOf, modesOf, if_pos hcount, if_pos hcount]
  · rw [modesOf_of_pos hcount hm, List.map_eq_nil_iff, List.filter_eq_nil_iff] at h
    have hsame := decompose_of_le (Int.toNat_le_toNat hle) fun s hs ↦
      Bool.eq_false_iff.mpr (h s hs)
    have hnotices : (decompose m.toNat count.toNat xs).modes.filter (·.capped) = [] :=
      List.filter_eq_nil_iff.mpr h
    rw [modesOf_of_pos hcount hm, modesOf_of_pos hcount (hm.trans hle), hsame, hnotices]
    rfl

/-- A cap matters only if sifting hits it. A mode without a notice is the same with a greater cap,
and so is a fault. With a notice, the mode is where so many steps lead as the cap allows, none of
which has changed the signal by less than the threshold. Therefore a decomposition that leaves no
notice is the same with a greater cap, and leaves none with it either. -/
theorem modeOf_greater_cap (xs : List α) {m m' : ℤ} (hm : 1 ≤ m) (hle : m ≤ m') :
    (∀ ys, modeOf xs m = ([], .ok ys) → modeOf xs m' = ([], .ok ys)) ∧
      (∀ fault, (modeOf xs m).2 = .error fault → modeOf xs m' = ([], .error fault) ∧
        ∃ shortfall, fault = .algorithm (.extrema shortfall)) ∧
      ((modeOf xs m).1 ≠ [] →
        ∃ ys, modeOf xs m = ([⟨m⟩], .ok ys) ∧ Unsettled m.toNat xs ys) ∧
      ∀ count, (modesOf xs count m).1 = [] → modesOf xs count m' = modesOf xs count m := by
  refine ⟨fun ys hys ↦ ?_, fun fault hfault ↦ ?_, fun hnotice ↦ ?_,
    fun count hcount ↦ modesOf_of_le hm hle hcount⟩
  · rw [modeOf_of_le hle (congrArg Prod.fst hys), hys]
  · cases hsift : sift m.toNat xs with
    | ok s =>
      rw [modeOf_of_ok hsift] at hfault
      cases hfault
    | error shortfall =>
      have hmode := modeOf_of_error hsift
      rw [hmode] at hfault
      obtain rfl := Except.error.inj hfault
      exact ⟨(modeOf_of_le hle (congrArg Prod.fst hmode)).trans hmode, shortfall, rfl⟩
  · cases hsift : sift m.toNat xs with
    | error shortfall => exact absurd (congrArg Prod.fst (modeOf_of_error hsift)) hnotice
    | ok s =>
      have hmode := modeOf_of_ok hsift
      cases sift_eq_iff.mp hsift with
      | settles => exact absurd (congrArg Prod.fst hmode) hnotice
      | capped hsteps => exact ⟨_, hmode, hsteps⟩

/-- A zigzag settles in the second step, so that a cap of one is hit and a cap of two is not. -/
theorem modeOf_greater_cap_zigzag :
    (1 : ℤ) ≤ 2 ∧ (2 : ℤ) ≤ 5 ∧
      (∃ ys, modeOf zigzag 2 = ([], .ok ys) ∧ modeOf zigzag 5 = ([], .ok ys)) ∧
      (∃ ys, modeOf zigzag 1 = ([⟨1⟩], .ok ys) ∧ Unsettled 1 zigzag ys) ∧
      (modesOf zigzag 1 2).1 = [] ∧ modesOf zigzag 1 5 = modesOf zigzag 1 2 := by
  have htwo : (1 : ℤ) ≤ 2 := by decide
  have hfive : (2 : ℤ) ≤ 5 := by decide
  obtain ⟨hmode, -, -, hmodes⟩ := modeOf_greater_cap zigzag htwo hfive
  obtain ⟨-, -, hhit, -⟩ := modeOf_greater_cap zigzag (le_refl (1 : ℤ)) (le_refl 1)
  have hnotices : (modeOf zigzag 2).1 = [] := by decide +kernel
  have hok : (modeOf zigzag 2).2.isOk = true := by decide +kernel
  have hnotice : (modeOf zigzag 1).1 ≠ [] := by decide +kernel
  have hquiet : (modesOf zigzag 1 2).1 = [] := by decide +kernel
  obtain ⟨ys, hys⟩ : ∃ ys, (modeOf zigzag 2).2 = .ok ys := by
    cases h : (modeOf zigzag 2).2 with
    | ok ys => exact ⟨ys, rfl⟩
    | error fault =>
      rw [h] at hok
      cases hok
  have hends : modeOf zigzag 2 = ([], .ok ys) := Prod.ext hnotices hys
  exact ⟨htwo, hfive, ⟨ys, hends, hmode ys hends⟩, hhit hnotice, hquiet, hmodes 1 hquiet⟩

end WaveNotebook.Sifting
