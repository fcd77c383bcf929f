import WaveNotebook.Proofs.Workspace.Evaluation
import WaveNotebook.Workspace.Basic

/-!
# Room for nested calls

`Expr.frames` counts the frames at the deepest place of an expression. If there is room for them,
the expression is evaluated as without a limit. In any room, evaluation does what it does without a
limit, up to the first place that is too deep; if it comes to such a place, it ends there, and the
fault is not one of the statement.
-/

namespace WaveNotebook

open Run

/-- The first computation does what the second one does, unless it runs out of frames. -/
def Run.Follows {α : Type} (x y : Run α) : Prop :=
  ∀ s, x.run s = y.run s ∨ (x.run s).1 = .error (.numeric .recursion)

namespace Run.Follows

variable {α β : Type} {x y : Run α}

theorem refl (x : Run α) : Follows x x := fun _ ↦ .inl rfl

theorem recursion (y : Run α) : Follows (Run.fail (.numeric .recursion)) y := fun _ ↦ .inr rfl

theorem bind {f g : α → Run β} (h : Follows x y) (hf : ∀ a, Follows (f a) (g a)) :
    Follows (x >>= f) (y >>= g) := by
  intro s
  cases hx : x.run s with
  | mk r s' =>
    have hs := h s
    rw [hx] at hs
    cases r with
    | ok a =>
      obtain hs | hs := hs
      · rw [run_bind_ok hx, run_bind_ok hs.symm]
        exact hf a s'
      · cases hs
    | error fault =>
      obtain hs | hs := hs
      · rw [run_bind_error hx, run_bind_error hs.symm]
        exact .inl rfl
      · cases hs
        rw [run_bind_error hx]
        exact .inr rfl

end Run.Follows

namespace Expr

mutual

/-- The frames of the calls that are open at the deepest place of an expression. -/
def frames (scope : Scope) : Expr → Nat
  | .call callee text args =>
    callFrames +
      if readsText scope callee text then Literal.frames text else framesAll scope args
  | .method _ _ args => callFrames + framesAll scope args
  | .data _ frames | .badLiteral _ frames => frames
  | .number _ | .name _ | .malformed _ | .tooDeep => 0

def framesAll (scope : Scope) : List Expr → Nat
  | [] => 0
  | e :: es => max (frames scope e) (framesAll scope es)

end

/-! ## Enough room -/

mutual

/-- Where there is room for an expression, nothing is cut off. -/
theorem cut_of_frames_le {scope : Scope} {room : Nat} {e : Expr} (h : e.frames scope ≤ room) :
    e.cut scope room = e := by
  match e with
  | .number _ | .name _ | .malformed _ | .tooDeep => rfl
  | .data d frames | .badLiteral d frames => exact if_neg (Nat.not_lt.mpr h)
  | .call callee text args =>
    unfold frames at h
    unfold cut
    rw [if_neg (by omega)]
    split
    · rename_i htext
      rw [if_pos htext] at h
      exact if_neg (by omega)
    · rename_i htext
      rw [if_neg htext] at h
      rw [cutAll_of_framesAll_le (by omega)]
  | .method receiver member args =>
    unfold frames at h
    unfold cut
    rw [if_neg (by omega), cutAll_of_framesAll_le (by omega)]

theorem cutAll_of_framesAll_le {scope : Scope} {room : Nat} {es : List Expr}
    (h : framesAll scope es ≤ room) : cutAll scope room es = es := by
  match es with
  | [] => rfl
  | e :: es =>
    unfold framesAll at h
    unfold cutAll
    rw [cut_of_frames_le (by omega), cutAll_of_framesAll_le (by omega)]

end

/-- All of an expression is evaluated, or there is a limit that is too low for it. -/
theorem limited_cases (scope : Scope) (room : Option Nat) (e : Expr) :
    e.limited scope room = e ∨ ∃ n, room = some n ∧ n < e.frames scope := by
  cases room with
  | none => exact .inl rfl
  | some n =>
    obtain h | h := Nat.lt_or_ge n (e.frames scope)
    · exact .inr ⟨n, rfl, h⟩
    · exact .inl (cut_of_frames_le h)

/-! ## Any room -/

mutual

theorem eval_cut_follows (scope : Scope) (room : Nat) (e : Expr) :
    Follows ((e.cut scope room).eval scope) (e.eval scope) := by
  match e with
  | .number _ | .name _ | .malformed _ | .tooDeep => exact .refl _
  | .data d frames | .badLiteral d frames =>
    unfold cut
    split
    · exact .recursion _
    · exact .refl _
  | .call callee text args =>
    unfold cut
    split
    · exact .recursion _
    · split
      · split
        · exact .recursion _
        · exact .refl _
      · unfold eval
        cases scope.resolve callee with
        | none => exact .refl _
        | some v =>
          cases v with
          | function b =>
            dsimp only
            cases b.style with
            | positional =>
              exact (evalAll_cutAll_follows scope _ args).bind fun _ ↦ .refl _
            | grid | options => exact .refl _
          | _ => exact .refl _
  | .method receiver member args =>
    unfold cut
    split
    · exact .recursion _
    · unfold eval
      cases scope.resolve receiver with
      | none => exact .refl _
      | some v =>
        exact (Follows.refl _).bind fun m ↦
          (evalAll_cutAll_follows scope _ args).bind fun _ ↦ .refl _

theorem evalAll_cutAll_follows (scope : Scope) (room : Nat) (es : List Expr) :
    Follows (evalAll scope (cutAll scope room es)) (evalAll scope es) := by
  match es with
  | [] => exact .refl _
  | e :: es =>
    unfold cutAll evalAll
    exact (eval_cut_follows scope room e).bind fun a ↦
      (evalAll_cutAll_follows scope room es).bind fun _ ↦ .refl _

end

/-- In a limited room, an expression has the value that it has without a limit, unless it runs out
of frames. -/
theorem value_limited_follows (scope : Scope) (room : Option Nat) (e : Expr) :
    Follows ((e.limited scope room).value scope) (e.value scope) := by
  cases room with
  | none => exact .refl _
  | some n => exact (eval_cut_follows scope n e).bind fun _ ↦ .refl _

/-! ## Expressions as they are read -/

theorem whole_ofLiteral (s : List Char) : (ofLiteral s).whole = true := by
  unfold ofLiteral
  cases Literal.read s <;> rfl

theorem wholeAll_argumentsWith {read : List Char → Expr} (h : ∀ s, (read s).whole = true)
    (text : List Char) : wholeAll (argumentsWith read text) = true := by
  unfold argumentsWith
  cases splitArguments text with
  | error fault => rfl
  | ok pieces =>
    dsimp only
    induction pieces with
    | nil => rfl
    | cons piece pieces ih =>
      rw [List.map_cons, wholeAll, h, ih]
      rfl

theorem whole_readWithin (bound : Nat) (s : List Char) : (readWithin bound s).whole = true := by
  induction bound generalizing s with
  | zero => rfl
  | succ bound ih =>
    unfold readWithin
    dsimp only
    split
    · rfl
    · split
      · split
        · rfl
        · split
          · refine wholeAll_argumentsWith (fun s ↦ ?_) _
            split
            · exact whole_ofLiteral s
            · exact ih s
          · exact wholeAll_argumentsWith ih _
      · split <;> rfl

/-- Reading leaves nothing out. -/
theorem whole_read (s : List Char) : (read s).whole = true := whole_readWithin _ s

end Expr

namespace Workspace

variable {w : Workspace}

/-! ## Evaluation, statements and lines -/

/-- Evaluation in a limited room is evaluation, or there is too little room and frames run out. -/
theorem evaluate_cases (w : Workspace) (text : List Char) (room : Option Nat) :
    w.evaluate text room = w.evaluate text ∨
      ∃ n w', room = some n ∧ n < (Expr.read text).frames w.scope ∧
        w.evaluate text room = (.error (.numeric .recursion), w') := by
  obtain h | ⟨n, hroom, hframes⟩ := Expr.limited_cases w.scope room (Expr.read text)
  · left
    unfold evaluate
    rw [h]
    rfl
  · obtain hsame | hfail :=
      Expr.value_limited_follows w.scope room (Expr.read text) w.session
    · left
      unfold evaluate
      dsimp only
      rw [hsame]
      rfl
    · have hvalue : (w.evaluate text room).1 = .error (.numeric .recursion) := hfail
      exact .inr ⟨n, (w.evaluate text room).2, hroom, hframes, by rw [← hvalue]⟩

/-- A value in a limited room is the value without a limit. -/
theorem evaluate_of_ok (w : Workspace) {text : List Char} {room : Option Nat} {v : Value}
    (h : (w.evaluate text room).1 = .ok v) : w.evaluate text room = w.evaluate text := by
  refine (w.evaluate_cases text room).resolve_right ?_
  rintro ⟨n, w', -, -, hvalue⟩
  rw [hvalue] at h
  cases h

end Workspace

end WaveNotebook
