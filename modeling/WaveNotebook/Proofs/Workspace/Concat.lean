import WaveNotebook.Proofs.Scan.Split
import WaveNotebook.Proofs.Workspace.Run

/-!
# Codes one after another

Executing two codes with a line break between them comes to the same as executing one after the
other. The lines of the whole are those of the parts. A line depends on its number only in the
fault that names it, so a run that starts at a later number differs in that number alone. And
since no output ends in a blank, nothing is trimmed between the outputs of the parts.
-/

namespace WaveNotebook

/-- The fault of a line that stands so many lines further down. -/
def Fault.shift (d : Nat) : Fault → Fault
  | .line number source cause => .line (number + d) source cause
  | fault => fault

namespace Workspace

/-! ## Lines -/

theorem lines_ne_nil (code : List Char) : lines code ≠ [] := by
  cases code with
  | nil => exact List.cons_ne_nil _ _
  | cons c cs =>
    unfold lines
    split
    · exact List.cons_ne_nil _ _
    · cases lines cs <;> exact List.cons_ne_nil _ _

theorem extend_append {c : Char} {xs ys : List (List Char)} (hxs : xs ≠ []) :
    Scan.extend c (xs ++ ys) = Scan.extend c xs ++ ys := by
  cases xs with
  | nil => exact absurd rfl hxs
  | cons x xs => rfl

theorem lines_append (a b : List Char) : lines (a ++ '\n' :: b) = lines a ++ lines b := by
  induction a with
  | nil => rfl
  | cons c cs ih =>
    rw [List.cons_append, lines, lines, ih]
    split
    · rfl
    · exact extend_append (lines_ne_nil cs)

theorem length_lines (code : List Char) : (lines code).length = code.count '\n' + 1 := by
  induction code with
  | nil => rfl
  | cons c cs ih =>
    rw [lines, List.count_cons]
    split
    · rename_i hc
      rw [List.length_cons, ih, hc, beq_self_eq_true, if_pos rfl]
    · rename_i hc
      have hextend : (Scan.extend c (lines cs)).length = (lines cs).length := by
        cases hlines : lines cs with
        | nil => exact absurd hlines (lines_ne_nil cs)
        | cons x xs => rfl
      rw [hextend, ih, beq_false_of_ne hc]
      rfl

theorem lines_of_not_mem {raw : List Char} (h : '\n' ∉ raw) : lines raw = [raw] := by
  induction raw with
  | nil => rfl
  | cons c cs ih =>
    rw [List.mem_cons, not_or] at h
    rw [lines, if_neg (Ne.symm h.1), ih h.2]
    rfl

theorem not_mem_of_mem_lines (code : List Char) : ∀ raw ∈ lines code, '\n' ∉ raw := by
  induction code with
  | nil => simp [lines]
  | cons c cs ih =>
    rw [lines]
    split
    · intro raw hraw
      obtain rfl | hraw := List.mem_cons.mp hraw
      · exact List.not_mem_nil
      · exact ih raw hraw
    · rename_i hc
      cases hlines : lines cs with
      | nil => exact absurd hlines (lines_ne_nil cs)
      | cons first rest =>
        rw [hlines] at ih
        intro raw hraw
        obtain rfl | hraw := List.mem_cons.mp hraw
        · rw [List.mem_cons, not_or]
          exact ⟨Ne.symm hc, ih first List.mem_cons_self⟩
        · exact ih raw (List.mem_cons_of_mem _ hraw)

/-- Lines that are joined with line breaks are found again. -/
theorem lines_joinWith {raws : List (List Char)} (hne : raws ≠ [])
    (h : ∀ raw ∈ raws, '\n' ∉ raw) : lines (joinWith '\n' raws) = raws := by
  induction raws with
  | nil => exact absurd rfl hne
  | cons raw rest ih =>
    have hraw := lines_of_not_mem (h raw List.mem_cons_self)
    cases rest with
    | nil =>
      rw [joinWith, List.intercalate_singleton]
      exact hraw
    | cons next rest =>
      rw [Scan.joinWith_cons_cons, lines_append, hraw,
        ih (List.cons_ne_nil _ _) fun r hr ↦ h r (List.mem_cons_of_mem _ hr)]
      rfl

/-! ## Line numbers -/

theorem shift_lineFault (number d : Nat) (line : List Char) (fault : Fault) :
    lineFault (number + d) line fault = (lineFault number line fault).shift d := by
  unfold lineFault
  dsimp only
  split
  · rfl
  · rename_i h
    -- a fault that is passed on as it is names no line
    cases fault with
    | line number source cause => exact absurd rfl h
    | _ => rfl

variable {w : Workspace}

theorem step_shift (w : Workspace) (number d : Nat) (raw : List Char) :
    w.step (number + d) raw =
      ((w.step number raw).1.mapError (Fault.shift d), (w.step number raw).2) := by
  by_cases hpassed : w.Passed raw
  · rw [step_of_passed hpassed, step_of_passed hpassed]
    rfl
  · rw [step_of_not_passed hpassed, step_of_not_passed hpassed]
    cases w.statement (w.code raw) with
    | mk r w' =>
      cases r with
      | error fault =>
        dsimp only
        rw [shift_lineFault]
        rfl
      | ok out => rfl

theorem run_shift (w : Workspace) (number d : Nat) (raws : List (List Char)) :
    w.run (number + d) raws =
      ((w.run number raws).1.mapError (Fault.shift d), (w.run number raws).2) := by
  induction raws generalizing w number with
  | nil => rfl
  | cons raw rest ih =>
    have hshift := step_shift w number d raw
    cases hstep : w.step number raw with
    | mk r w' =>
      rw [hstep] at hshift
      cases r with
      | error fault =>
        rw [run_cons_error hshift, run_cons_error hstep]
        rfl
      | ok out =>
        rw [run_cons_ok hshift, run_cons_ok hstep, Nat.add_right_comm, ih]
        cases (w'.run (number + 1) rest).1 <;> rfl

/-! ## Runs over the lines of two codes -/

/-- The run over the second lines starts where the one over the first lines has ended. -/
theorem run_append (w : Workspace) (number : Nat) (xs ys : List (List Char)) :
    w.run number (xs ++ ys) =
      match w.run number xs with
      | (.error fault, w') => (.error fault, w')
      | (.ok outs, w') =>
        ((w'.run (number + xs.length) ys).1.map (outs ++ ·),
          (w'.run (number + xs.length) ys).2) := by
  induction xs generalizing w number with
  | nil =>
    change w.run number ys = ((w.run number ys).1.map ([] ++ ·), (w.run number ys).2)
    cases w.run number ys with
    | mk r w' => cases r <;> rfl
  | cons x xs ih =>
    rw [List.cons_append, List.length_cons, Nat.add_comm xs.length, ← Nat.add_assoc]
    cases hstep : w.step number x with
    | mk r w₁ =>
      cases r with
      | error fault => rw [run_cons_error hstep, run_cons_error hstep]
      | ok out =>
        rw [run_cons_ok hstep, run_cons_ok hstep, ih]
        cases w₁.run (number + 1) xs with
        | mk r w₂ =>
          cases r with
          | error fault => rfl
          | ok outs =>
            dsimp only [Except.map]
            cases (w₂.run (number + 1 + xs.length) ys).1 with
            | error fault => rfl
            | ok outs' =>
              dsimp only
              rw [List.append_assoc]

/-! ## Outputs -/

theorem joinWith_append (sep : Char) {xs ys : List (List Char)} (hxs : xs ≠ []) (hys : ys ≠ []) :
    joinWith sep (xs ++ ys) = joinWith sep xs ++ sep :: joinWith sep ys := by
  induction xs with
  | nil => exact absurd rfl hxs
  | cons x xs ih =>
    cases xs with
    | nil =>
      cases ys with
      | nil => exact absurd rfl hys
      | cons y ys => simp [joinWith, List.intercalate_cons_cons]
    | cons x' xs =>
      have hrest := ih (List.cons_ne_nil _ _)
      unfold joinWith at hrest ⊢
      rw [List.cons_append, List.cons_append, List.intercalate_cons_cons,
        List.intercalate_cons_cons, ← List.cons_append, hrest]
      simp

/-- The outputs of two codes are joined by a line break, unless one of them is empty. -/
theorem joinWith_append_of_visible {xs ys : List (List Char)}
    (hxs : ∀ x ∈ xs, Text.EndsVisible x) (hys : ∀ y ∈ ys, Text.EndsVisible y) :
    joinWith '\n' (xs ++ ys) =
      joinWith '\n' ([joinWith '\n' xs, joinWith '\n' ys].filter (!·.isEmpty)) := by
  have hempty : (joinWith '\n' []).isEmpty = true := rfl
  have hsingle : ∀ z, joinWith '\n' [z] = z := fun z ↦ List.intercalate_singleton ..
  have hjoin : ∀ zs : List (List Char), zs ≠ [] → (∀ z ∈ zs, Text.EndsVisible z) →
      (joinWith '\n' zs).isEmpty = false := by
    intro zs hne hzs
    have hvisible : Text.EndsVisible (joinWith '\n' zs) := Text.endsVisible_intercalate _ hne hzs
    simpa using hvisible.ne_nil
  by_cases hxnil : xs = []
  · subst hxnil
    by_cases hynil : ys = []
    · subst hynil
      simp [hempty]
    · simp [hempty, hjoin ys hynil hys, hsingle]
  · by_cases hynil : ys = []
    · subst hynil
      simp [hempty, hjoin xs hxnil hxs, hsingle]
    · have htwo : joinWith '\n' [joinWith '\n' xs, joinWith '\n' ys] =
          joinWith '\n' xs ++ '\n' :: joinWith '\n' ys := by
        rw [← hsingle (joinWith '\n' ys), ← List.singleton_append,
          joinWith_append '\n' (List.cons_ne_nil _ _) (List.cons_ne_nil _ _), hsingle, hsingle]
      simp [hjoin xs hxnil hxs, hjoin ys hynil hys, htwo, joinWith_append '\n' hxnil hynil]

/-! ## Codes -/

/-- Without a limit, every fault of a run in a sound workspace names a line. -/
theorem Runs.fault_line {number : Nat} {raws : List (List Char)}
    {r : Except Fault (List (List Char))} {w w' : Workspace} (h : Runs none w number raws r w') :
    ∀ fault, r = .error fault → ∃ k source cause, fault = .line k source cause := by
  induction h with
  | nil => exact fun _ hr ↦ nomatch hr
  | fail h =>
    rintro _ ⟨⟩
    cases h with
    | failed _ hfails =>
      obtain ⟨cause, -, hfault⟩ := hfails.line
      exact ⟨_, _, cause, hfault⟩
  | exhaust _ hroom =>
    obtain ⟨_, _, _, hnone, -⟩ := hroom.statement
    cases hnone
  | @next _ _ _ _ _ _ r _ _ _ ih =>
    cases r with
    | error fault =>
      rintro _ ⟨⟩
      exact ih fault rfl
    | ok outs => exact fun _ hr ↦ nomatch hr

/-- Executing two codes as one. The first one may fail; or both succeed; or the second one
fails, at a line that is further down in the whole by the number of lines of the first. -/
theorem Reachable.execute_append {w : Workspace} (hw : Reachable w) (a b : List Char) :
    (∀ fault w₁, w.execute a = (.error fault, w₁) →
      w.execute (a ++ '\n' :: b) = (.error fault, w₁)) ∧
    (∀ s w₁ t w₂, w.execute a = (.ok s, w₁) → w₁.execute b = (.ok t, w₂) →
      w.execute (a ++ '\n' :: b) = (.ok (joinWith '\n' ([s, t].filter (!·.isEmpty))), w₂)) ∧
    (∀ s w₁ fault w₂, w.execute a = (.ok s, w₁) → w₁.execute b = (.error fault, w₂) →
      ∃ k source cause, fault = .line k source cause ∧
        w.execute (a ++ '\n' :: b) =
          (.error (.line (k + 1 + a.count '\n') source cause), w₂)) := by
  have hrun := run_append w 1 (lines a) (lines b)
  rw [← lines_append] at hrun
  have hfirst := hw.sound.run 1 (lines a)
  refine ⟨fun fault w₁ ha ↦ ?_, fun s w₁ t w₂ ha hb ↦ ?_, fun s w₁ fault w₂ ha hb ↦ ?_⟩
  · rw [hw.sound.execute_error_iff] at ha ⊢
    rw [hrun, ha]
  · obtain ⟨outs, hruna, rfl⟩ := hw.sound.execute_ok_iff.mp ha
    rw [hruna] at hfirst hrun
    -- the second run starts at line one by itself, and behind the first lines in the whole
    obtain ⟨outs', hrunb, rfl⟩ := hfirst.2.execute_ok_iff.mp hb
    have hsecond := hfirst.2.run 1 (lines b)
    dsimp only at hrun
    rw [run_shift, hrunb] at hrun
    rw [hrunb] at hsecond
    refine hw.sound.execute_ok_iff.mpr ⟨outs ++ outs', hrun, ?_⟩
    exact (joinWith_append_of_visible (hfirst.1.visible outs rfl)
      (hsecond.1.visible outs' rfl)).symm
  · obtain ⟨outs, hruna, rfl⟩ := hw.sound.execute_ok_iff.mp ha
    rw [hruna] at hfirst hrun
    have hrunb := hfirst.2.execute_error_iff.mp hb
    have hsecond := hfirst.2.run 1 (lines b)
    rw [hrunb] at hsecond
    obtain ⟨k, source, cause, rfl⟩ := hsecond.1.fault_line fault rfl
    refine ⟨k, source, cause, rfl, hw.sound.execute_error_iff.mpr ?_⟩
    dsimp only at hrun
    rw [run_shift, hrunb, length_lines] at hrun
    rw [hrun, Nat.add_assoc k, Nat.add_comm 1]
    rfl

/-- An assignment and a line that uses its name, in one code. -/
theorem execute_append_new :
    ((new .default .standard).execute ("x = 1".toList ++ '\n' :: "x".toList)).1 =
      .ok (joinWith '\n' (["x = 1".toList, "1".toList].filter (!·.isEmpty))) := by
  have hfirst : ((new .default .standard).execute "x = 1".toList).1.toOption =
      some "x = 1".toList := by decide +kernel
  have hsecond : (((new .default .standard).execute "x = 1".toList).2.execute
      "x".toList).1.toOption = some "1".toList := by decide +kernel
  have hboth := (Reachable.execute_append (.new Config.accepted_default) "x = 1".toList
    "x".toList).2.1 _ _ _ _ (ok_of_toOption hfirst) (ok_of_toOption hsecond)
  rw [hboth]

end Workspace

end WaveNotebook
