import WaveNotebook.Proofs.Scan.Comment
import WaveNotebook.Proofs.Value.Text
import WaveNotebook.Proofs.Workspace.Sound

/-!
# What a line does

A line of code has one of three outcomes. It is passed over, and nothing changes; it fails with a
fault that names it, and binds nothing; or it is done, and then it is remembered, prints a text
that ends visibly, and changes one binding at most. In a sound workspace each line has one of
these outcomes and leaves a sound workspace. In a limited room there is a fourth one: a line whose
calls and brackets are nested too deep binds nothing either, but its fault does not name it.
-/

namespace WaveNotebook

namespace Workspace

/-- A line that is blank or a comment as a whole. -/
def Passed (w : Workspace) (raw : List Char) : Prop :=
  Text.trim raw = [] ∨ w.scope.config.marker.toList <+: Text.trim raw

/-- What is left of a line without the blanks around it and without its comment. -/
def code (w : Workspace) (raw : List Char) : List Char :=
  Scan.stripComment w.scope.config.marker.toList (Text.trim raw)

/-- The second workspace has the bindings of the first one, but for the target, if any, which
stands for the value: where it stood before, or behind all other names. -/
structure Binds (w : Workspace) (target : Option String) (v : Value) (w' : Workspace) :
    Prop where
  config : w'.scope.config = w.scope.config
  methods : w'.scope.methods = w.scope.methods
  names : w'.names = match target with
    | none => w.names
    | some name => if name ∈ w.names then w.names else w.names ++ [name]
  bound : ∀ name, target = some name → w'.scope.bindings.lookup name = some v
  others : ∀ name, target ≠ some name →
    w'.scope.bindings.lookup name = w.scope.bindings.lookup name

/-- The line fails with a fault that tells its number and its text, of a class that statements
may fail with. Bindings and history stay. -/
structure Fails (w : Workspace) (number : Nat) (raw : List Char) (fault : Fault)
    (w' : Workspace) : Prop where
  line : ∃ cause : Fault, cause.Expected ∧
    fault = .line number (String.ofList (Text.trim raw)) cause
  category : fault.category = .evaluation
  kind : fault.category.kind? = some .runtime
  scope : w'.scope = w.scope
  history : w'.history = w.history

/-- The line gives the value of its expression, which is printed behind the target, if any, and
bound to it. -/
structure Gives (w : Workspace) (raw : List Char) (out : List Char) (w' : Workspace) :
    Prop where
  history : w'.history = w.history ++ [String.ofList (Text.trim raw)]
  visible : Text.EndsVisible out
  statement : ∃ target expression v,
    assignment (w.code raw) = .ok (target, expression) ∧
    (w.evaluate expression).1 = .ok v ∧
    out = (target.elim [] fun name ↦ name.toList ++ [' ', '=', ' ']) ++ w'.printed v ∧
    w.Binds target v w'

/-- The outcome of a line: what it prints or how it fails, and the workspace behind it. -/
inductive LineOutcome (w : Workspace) (number : Nat) (raw : List Char) :
    Except Fault (Option (List Char)) → Workspace → Prop
  | passed (h : w.Passed raw) : LineOutcome w number raw (.ok none) w
  | failed {fault w'} (h : ¬w.Passed raw) (hfails : w.Fails number raw fault w') :
    LineOutcome w number raw (.error fault) w'
  | done {out w'} (h : ¬w.Passed raw) (hgives : w.Gives raw out w') :
    LineOutcome w number raw (.ok (some out)) w'

/-- There is a limit, and the expression of the line needs more room. Bindings and history stay. -/
structure Exhausts (w : Workspace) (room : Option Nat) (raw : List Char) (w' : Workspace) :
    Prop where
  statement : ∃ n target expression, room = some n ∧
    assignment (w.code raw) = .ok (target, expression) ∧
    n < (Expr.read expression).frames w.scope ∧ w' = (w.evaluate expression room).2
  scope : w'.scope = w.scope
  history : w'.history = w.history

variable {w : Workspace} {room : Option Nat}

theorem lineFault_eq {fault : Fault} (h : fault.Expected) (number : Nat) (line : List Char) :
    ∃ cause : Fault, cause.Expected ∧
      lineFault number line fault = .line number (String.ofList line) cause := by
  unfold lineFault
  refine ⟨_, ?_, if_pos h⟩
  split
  · split
    · rfl
    · exact h
  · exact h

/-! ## Statements -/

/-- The workspace with the value bound to the target, if there is one. -/
def assign (w : Workspace) (target : Option String) (v : Value) : Workspace :=
  target.elim w fun name ↦ w.bind name v

/-- What is printed in front of a value. -/
def label (target : Option String) : List Char :=
  target.elim [] fun name ↦ name.toList ++ [' ', '=', ' ']

theorem statement_of_assignment_error {line : List Char} {fault : Fault}
    (h : assignment line = .error fault) : w.statement line room = (.error fault, w) := by
  rw [statement, h]

section

variable {line expression : List Char} {target : Option String} {w' : Workspace}

theorem statement_of_evaluate_error {fault : Fault}
    (h : assignment line = .ok (target, expression))
    (hvalue : w.evaluate expression room = (.error fault, w')) :
    w.statement line room = (.error fault, w') := by
  rw [statement, h]
  dsimp only
  rw [hvalue]

theorem statement_of_evaluate_ok {v : Value} (h : assignment line = .ok (target, expression))
    (hvalue : w.evaluate expression room = (.ok v, w')) :
    w.statement line room =
      (.ok (label target ++ (w'.assign target v).printed v), w'.assign target v) := by
  rw [statement, h]
  dsimp only
  rw [hvalue]
  cases target <;> rfl

end

theorem binds_assign {w' : Workspace} (hscope : w'.scope = w.scope) (target : Option String)
    (v : Value) : w.Binds target v (w'.assign target v) := by
  have hnames : w'.names = w.names :=
    congrArg (fun scope : Scope ↦ Record.keys scope.bindings) hscope
  cases target with
  | none =>
    refine ⟨?_, ?_, hnames, (fun _ h ↦ nomatch h), fun _ _ ↦ ?_⟩ <;> rw [← hscope] <;> rfl
  | some name =>
    refine ⟨?_, ?_, ?_, ?_, ?_⟩
    · rw [← hscope]
      rfl
    · rw [← hscope]
      rfl
    · dsimp only
      rw [← hnames]
      exact names_bind w' name v
    · intro name' h
      cases h
      exact Record.lookup_put_self _ _ _
    · intro name' h
      rw [← hscope]
      exact Record.lookup_put_of_ne (fun heq ↦ h (congrArg some heq.symm)) _ _

theorem Binds.remember {target : Option String} {v : Value} {w' : Workspace}
    (h : w.Binds target v w') (history : List String) :
    w.Binds target v { w' with history := history } :=
  ⟨h.config, h.methods, h.names, h.bound, h.others⟩

theorem Sound.assign (hw : w.Sound) {target : Option String} {v : Value}
    (htarget : ∀ name, target = some name → Text.isPlainName name.toList = true)
    (hv : v.Sound w.session.store) : (w.assign target v).Sound := by
  cases target with
  | none => exact hw
  | some name => exact hw.bind (htarget name rfl) hv

theorem Sound.endsVisible_printed (hw : w.Sound) (v : Value) : Text.EndsVisible (w.printed v) :=
  v.endsVisible_text hw.store _

/-! ## Lines -/

theorem step_of_passed {raw : List Char} (h : w.Passed raw) (number : Nat) :
    w.step number raw room = (.ok none, w) := by
  unfold step
  dsimp only
  rw [if_pos]
  rw [Bool.or_eq_true, List.isEmpty_iff, List.isPrefixOf_iff_prefix]
  exact h

theorem infix_code (w : Workspace) (raw : List Char) : w.code raw <:+: raw := by
  have hbefore := Scan.beforeComment_prefix w.scope.config.marker.toList none (Text.trim raw)
  exact (Text.infix_trim _).trans (hbefore.isInfix.trans (Text.infix_trim raw))

theorem code_ne_nil {raw : List Char} (h : ¬w.Passed raw) : w.code raw ≠ [] := by
  have hline : Text.trim raw ≠ [] := fun hnil ↦ h (.inl hnil)
  have hmarker : w.scope.config.marker.toList.isPrefixOf (Text.trim raw) = false := by
    rw [Bool.eq_false_iff, Ne, List.isPrefixOf_iff_prefix]
    exact fun hpre ↦ h (.inr hpre)
  exact Scan.stripComment_ne_nil hline hmarker

/-- A line that is not passed over is a statement. -/
theorem step_of_not_passed {raw : List Char} (h : ¬w.Passed raw) (number : Nat) :
    w.step number raw room =
      match w.statement (w.code raw) room with
      | (.error fault, w') => (.error (lineFault number (Text.trim raw) fault), w')
      | (.ok out, w') =>
        (.ok (some out), { w' with history := w'.history ++ [String.ofList (Text.trim raw)] }) := by
  have hcode := code_ne_nil h
  have hline : ¬((Text.trim raw).isEmpty ||
      w.scope.config.marker.toList.isPrefixOf (Text.trim raw)) = true := by
    rw [Bool.or_eq_true, List.isEmpty_iff, List.isPrefixOf_iff_prefix]
    exact h
  unfold step
  dsimp only
  -- the second test never holds, since a comment does not start the line
  rw [if_neg hline, if_neg (by simpa [code] using hcode)]
  rfl

/-- The workspace with a line added to its history. -/
def remember (w : Workspace) (raw : List Char) : Workspace :=
  { w with history := w.history ++ [String.ofList (Text.trim raw)] }

/-- All that a line can do: it is passed over, it is no proper assignment, its expression fails,
or its expression has a value. -/
inductive StepCase (w : Workspace) (number : Nat) (raw : List Char) : Prop
  | passed (h : w.Passed raw) (hstep : w.step number raw = (.ok none, w))
  | malformed (h : ¬w.Passed raw) {fault : Fault} (hline : assignment (w.code raw) = .error fault)
    (hstep : w.step number raw = (.error (lineFault number (Text.trim raw) fault), w))
  | failed (h : ¬w.Passed raw) {target : Option String} {expression : List Char} {fault : Fault}
    {w' : Workspace} (hline : assignment (w.code raw) = .ok (target, expression))
    (hvalue : w.evaluate expression = (.error fault, w'))
    (hstep : w.step number raw = (.error (lineFault number (Text.trim raw) fault), w'))
  | done (h : ¬w.Passed raw) {target : Option String} {expression : List Char} {v : Value}
    {w' : Workspace} (hline : assignment (w.code raw) = .ok (target, expression))
    (hvalue : w.evaluate expression = (.ok v, w'))
    (hstep : w.step number raw = (.ok (some (label target ++ (w'.assign target v).printed v)),
      (w'.assign target v).remember raw))

theorem step_cases (w : Workspace) (number : Nat) (raw : List Char) : StepCase w number raw := by
  by_cases hpassed : w.Passed raw
  · exact .passed hpassed (step_of_passed hpassed number)
  · have hstep : w.step number raw = _ := step_of_not_passed hpassed number
    cases hline : assignment (w.code raw) with
    | error fault =>
      rw [statement_of_assignment_error hline] at hstep
      exact .malformed hpassed hline hstep
    | ok p =>
      obtain ⟨target, expression⟩ := p
      cases hvalue : w.evaluate expression with
      | mk r w' =>
        cases r with
        | error fault =>
          rw [statement_of_evaluate_error hline hvalue] at hstep
          exact .failed hpassed hline hvalue hstep
        | ok v =>
          rw [statement_of_evaluate_ok hline hvalue] at hstep
          exact .done hpassed hline hvalue hstep

/-- Evaluation changes the session alone. -/
theorem frame_of_evaluate {expression : List Char} {r : Except Fault Value} {w' : Workspace}
    (h : w.evaluate expression room = (r, w')) :
    w'.scope = w.scope ∧ w'.history = w.history := by
  have hframe : (w.evaluate expression room).2.scope = w.scope ∧
      (w.evaluate expression room).2.history = w.history := ⟨rfl, rfl⟩
  rwa [h] at hframe

theorem fails_lineFault {fault : Fault} (h : fault.Expected) (number : Nat) (raw : List Char)
    {w' : Workspace} (hscope : w'.scope = w.scope) (hhistory : w'.history = w.history) :
    w.Fails number raw (lineFault number (Text.trim raw) fault) w' := by
  obtain ⟨cause, hcause, hfault⟩ := lineFault_eq h number (Text.trim raw)
  rw [hfault]
  exact ⟨⟨cause, hcause, rfl⟩, rfl, rfl, hscope, hhistory⟩

/-- What a statement gives whose value is known. -/
theorem gives_assign {raw expression : List Char} {target : Option String} {v : Value}
    {w' : Workspace} (hline : assignment (w.code raw) = .ok (target, expression))
    (hvalue : w.evaluate expression = (.ok v, w')) (hsound : (w'.assign target v).Sound) :
    w.Gives raw (label target ++ (w'.assign target v).printed v)
      ((w'.assign target v).remember raw) := by
  obtain ⟨hscope, hhistory⟩ := frame_of_evaluate hvalue
  have hassign : (w'.assign target v).history = w'.history := by
    cases target <;> rfl
  refine ⟨?_, ?_, target, expression, v, hline, ?_, rfl, ?_⟩
  · rw [remember, hassign, hhistory]
  · exact (hsound.endsVisible_printed v).append_left _
  · rw [hvalue]
  · exact (binds_assign hscope target v).remember _

/-- Every line has an outcome, and leaves a sound workspace. -/
theorem Sound.step (hw : w.Sound) (number : Nat) (raw : List Char) :
    LineOutcome w number raw (w.step number raw).1 (w.step number raw).2 ∧
      (w.step number raw).2.Sound := by
  have hassignment := assignment_yields (w.code raw)
  cases w.step_cases number raw with
  | passed h hstep =>
    rw [hstep]
    exact ⟨.passed h, hw⟩
  | malformed h hline hstep =>
    rw [hline] at hassignment
    rw [hstep]
    exact ⟨.failed h (fails_lineFault hassignment.fault number raw rfl rfl), hw⟩
  | @failed h _ expression _ _ _ hvalue hstep =>
    have hsound := hw.evaluate expression
    have hyields := hw.evaluate_yields expression
    rw [hvalue] at hsound hyields
    obtain ⟨hscope, hhistory⟩ := frame_of_evaluate hvalue
    rw [hstep]
    exact ⟨.failed h (fails_lineFault hyields.fault number raw hscope hhistory), hsound⟩
  | @done h _ expression _ _ hline hvalue hstep =>
    have hsound := hw.evaluate expression
    have hyields := hw.evaluate_yields expression
    rw [hvalue] at hsound hyields
    rw [hline] at hassignment
    -- printing cannot fail, so the binding is never left behind by a failing line
    have hbound := hsound.assign hassignment.value hyields.value
    rw [hstep]
    exact ⟨.done h (gives_assign hline hvalue hbound), hbound.remember _⟩

/-! ## Lines in a limited room -/

/-- A limit makes no difference to a line, or frames run out in it. -/
theorem step_in_cases (w : Workspace) (number : Nat) (raw : List Char) (room : Option Nat) :
    w.step number raw room = w.step number raw ∨
      ∃ w', ¬w.Passed raw ∧ w.step number raw room = (.error (.numeric .recursion), w') ∧
        w.Exhausts room raw w' := by
  by_cases hpassed : w.Passed raw
  · left
    rw [step_of_passed hpassed, step_of_passed hpassed]
  · rw [step_of_not_passed hpassed, step_of_not_passed hpassed]
    cases hline : assignment (w.code raw) with
    | error fault =>
      left
      rw [statement_of_assignment_error hline, statement_of_assignment_error hline]
    | ok p =>
      obtain ⟨target, expression⟩ := p
      obtain hsame | ⟨n, w', hroom, hframes, hvalue⟩ := w.evaluate_cases expression room
      · left
        rw [statement, statement, hline]
        dsimp only
        rw [hsame]
      · right
        obtain ⟨hscope, hhistory⟩ := frame_of_evaluate hvalue
        rw [statement_of_evaluate_error hline hvalue]
        refine ⟨w', hpassed, rfl, ⟨n, target, expression, hroom, hline, hframes, ?_⟩, hscope,
          hhistory⟩
        rw [hvalue]

theorem Sound.exhausts (hw : w.Sound) {raw : List Char} {w' : Workspace}
    (h : w.Exhausts room raw w') : w'.Sound := by
  obtain ⟨n, target, expression, -, -, -, rfl⟩ := h.statement
  exact hw.evaluate expression room

end Workspace

end WaveNotebook
