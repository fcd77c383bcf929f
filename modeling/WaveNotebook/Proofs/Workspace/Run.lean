import WaveNotebook.Proofs.Workspace.Line

/-!
# Runs

A run goes through the lines of a code, each in the workspace that the one before it has left, up
to the first that fails. What it prints is the outputs of the lines that have one, with a line
break between them. Every workspace that is reached from a new one by running codes and by
evaluating expressions, in whatever room, is sound.
-/

namespace WaveNotebook

/-- Settings that the constructor accepts. -/
def Config.Accepted (c : Config) : Prop :=
  ∃ r, Config.ofRecord r = .ok c

theorem Config.accepted_default : Config.default.Accepted := ⟨[], rfl⟩

namespace Workspace

/-- The lines from a number on have their outcomes one after another. A failure ends the run, and
so do frames that run out: that fault is passed on as it is. -/
inductive Runs (room : Option Nat) : Workspace → Nat → List (List Char) →
    Except Fault (List (List Char)) → Workspace → Prop
  | nil (w number) : Runs room w number [] (.ok []) w
  | fail {w number raw rest fault w'} (h : LineOutcome w number raw (.error fault) w') :
    Runs room w number (raw :: rest) (.error fault) w'
  | exhaust {w number raw rest w'} (h : ¬w.Passed raw) (hroom : w.Exhausts room raw w') :
    Runs room w number (raw :: rest) (.error (.numeric .recursion)) w'
  | next {w number raw rest out w₁ outs w'} (h : LineOutcome w number raw (.ok out) w₁)
    (hrest : Runs room w₁ (number + 1) rest outs w') :
    Runs room w number (raw :: rest) (outs.map (out.toList ++ ·)) w'

/-- The workspaces of a notebook session, whose calls may each have another room. -/
inductive Reachable : Workspace → Prop
  | new {config : Config} (h : config.Accepted) : Reachable (new config .standard)
  | execute {w} (hw : Reachable w) (code : List Char) (room : Option Nat := none) :
    Reachable (w.execute code room).2
  | evaluate {w} (hw : Reachable w) (text : List Char) (room : Option Nat := none) :
    Reachable (w.evaluate text room).2

variable {w : Workspace} {room : Option Nat}

theorem run_cons_error {number : Nat} {raw : List Char} {fault : Fault} {w' : Workspace}
    (h : w.step number raw room = (.error fault, w')) (rest : List (List Char)) :
    w.run number (raw :: rest) room = (.error fault, w') := by
  rw [run, h]

theorem run_cons_ok {number : Nat} {raw : List Char} {out : Option (List Char)} {w' : Workspace}
    (h : w.step number raw room = (.ok out, w')) (rest : List (List Char)) :
    w.run number (raw :: rest) room =
      ((w'.run (number + 1) rest room).1.map (out.toList ++ ·),
        (w'.run (number + 1) rest room).2) := by
  rw [run, h]

theorem Sound.run (hw : w.Sound) (number : Nat) (raws : List (List Char))
    (room : Option Nat := none) :
    Runs room w number raws (w.run number raws room).1 (w.run number raws room).2 ∧
      (w.run number raws room).2.Sound := by
  induction raws generalizing w number with
  | nil => exact ⟨.nil w number, hw⟩
  | cons raw rest ih =>
    obtain hsame | ⟨w', hpassed, hstep, hexhausts⟩ := w.step_in_cases number raw room
    · obtain ⟨houtcome, hsound⟩ := hw.step number raw
      rw [← hsame] at houtcome hsound
      cases hstep : w.step number raw room with
      | mk r w' =>
        rw [hstep] at houtcome hsound
        cases r with
        | error fault =>
          rw [run_cons_error hstep]
          exact ⟨.fail houtcome, hsound⟩
        | ok out =>
          rw [run_cons_ok hstep]
          obtain ⟨hruns, hrest⟩ := ih hsound (number + 1)
          exact ⟨.next houtcome hruns, hrest⟩
    · rw [run_cons_error hstep]
      exact ⟨.exhaust hpassed hexhausts, hw.exhausts hexhausts⟩

theorem execute_eq (w : Workspace) (code : List Char) (room : Option Nat := none) :
    w.execute code room =
      ((w.run 1 (lines code) room).1.map fun outs ↦ Text.trimRight (joinWith '\n' outs),
        (w.run 1 (lines code) room).2) := rfl

theorem Sound.execute (hw : w.Sound) (code : List Char) (room : Option Nat := none) :
    (w.execute code room).2.Sound :=
  (hw.run 1 (lines code) room).2

theorem Reachable.sound (hw : Reachable w) : w.Sound := by
  induction hw with
  | new h => exact sound_new _
  | execute hw code room ih => exact ih.execute code room
  | evaluate hw text room ih => exact ih.evaluate text room

/-! ## Outputs -/

theorem LineOutcome.visible {number : Nat} {raw : List Char} {out : Option (List Char)}
    {w' : Workspace} (h : LineOutcome w number raw (.ok out) w') :
    ∀ text ∈ out.toList, Text.EndsVisible text := by
  cases h with
  | passed _ => exact fun _ htext ↦ nomatch htext
  | done _ hgives =>
    intro text htext
    rw [Option.toList_some, List.mem_singleton] at htext
    rw [htext]
    exact hgives.visible

theorem Runs.visible {number : Nat} {raws : List (List Char)} {r : Except Fault (List (List Char))}
    {w' : Workspace} (h : Runs room w number raws r w') :
    ∀ outs, r = .ok outs → ∀ out ∈ outs, Text.EndsVisible out := by
  induction h with
  | nil w number =>
    rintro _ ⟨⟩ _ hout
    exact nomatch hout
  | fail h => exact fun _ hr ↦ nomatch hr
  | exhaust _ _ => exact fun _ hr ↦ nomatch hr
  | @next _ _ _ _ out _ r _ h hrest ih =>
    cases r with
    | error fault => exact fun _ hr ↦ nomatch hr
    | ok outs =>
      rintro _ ⟨⟩ text htext
      obtain htext | htext := List.mem_append.mp htext
      · exact h.visible text htext
      · exact ih outs rfl text htext

/-- Outputs that end visibly lose nothing at the end of their text. -/
theorem trimRight_joinWith {outs : List (List Char)} (h : ∀ out ∈ outs, Text.EndsVisible out) :
    Text.trimRight (joinWith '\n' outs) = joinWith '\n' outs := by
  cases outs with
  | nil => rfl
  | cons out outs =>
    exact (Text.endsVisible_intercalate ['\n'] (List.cons_ne_nil _ _) h).trimRight_eq

/-- The result of a code in terms of its run, without the last trimming. -/
theorem Sound.execute_eq (hw : w.Sound) (code : List Char) (room : Option Nat := none) :
    w.execute code room =
      ((w.run 1 (lines code) room).1.map (joinWith '\n'), (w.run 1 (lines code) room).2) := by
  have hvisible := (hw.run 1 (lines code) room).1.visible
  rw [Workspace.execute_eq w code room]
  cases hr : (w.run 1 (lines code) room).1 with
  | error fault => rfl
  | ok outs =>
    rw [Except.map, Except.map, trimRight_joinWith (hvisible outs hr)]

section

variable {w w' : Workspace} {code : List Char}

theorem Sound.execute_error_iff (hw : w.Sound) {fault : Fault} :
    w.execute code = (.error fault, w') ↔ w.run 1 (lines code) = (.error fault, w') := by
  rw [hw.execute_eq]
  cases w.run 1 (lines code) with
  | mk r w₁ =>
    cases r with
    | error fault' =>
      constructor <;> intro h <;> cases h <;> rfl
    | ok outs => exact ⟨fun h ↦ (nomatch h), fun h ↦ (nomatch h)⟩

theorem Sound.execute_ok_iff (hw : w.Sound) {s : List Char} :
    w.execute code = (.ok s, w') ↔
      ∃ outs, w.run 1 (lines code) = (.ok outs, w') ∧ s = joinWith '\n' outs := by
  rw [hw.execute_eq]
  constructor
  · intro h
    cases hrun : w.run 1 (lines code) with
    | mk r w₁ =>
      rw [hrun] at h
      cases r with
      | error fault => cases h
      | ok outs =>
        cases h
        exact ⟨outs, rfl, rfl⟩
  · rintro ⟨outs, hrun, rfl⟩
    rw [hrun]
    rfl

end

/-! ## Results of concrete codes -/

section

variable {α σ : Type} {p : Except Fault α × σ}

theorem ok_of_toOption {a : α} (h : p.1.toOption = some a) : p = (.ok a, p.2) := by
  obtain ⟨r, s⟩ := p
  cases r with
  | error fault => cases h
  | ok b =>
    cases h
    rfl

theorem error_of_toOption (h : p.1.toOption.isNone = true) : ∃ fault, p = (.error fault, p.2) := by
  obtain ⟨r, s⟩ := p
  cases r with
  | error fault => exact ⟨fault, rfl⟩
  | ok a => cases h

end

/-! ## Codes -/

end Workspace

end WaveNotebook
