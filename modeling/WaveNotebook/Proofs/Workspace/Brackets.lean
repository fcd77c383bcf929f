import WaveNotebook.Proofs.Literal.Room
import WaveNotebook.Proofs.Workspace.Comment
import WaveNotebook.Proofs.Workspace.LiteralArgument

/-!
# Brackets and room

The frames that a code needs are bounded by the brackets in it: a call takes frames for its
parenthesis, and a literal for its brackets. So a code with few brackets does in a limited room
what it does without a limit. Whatever the limit is, some code is nested too deep for it; its line
fails with a fault that does not name it, as no line does in which there is room enough.
-/

namespace WaveNotebook

open Text Scan

/-! ## Few brackets -/

namespace Expr

/-- Frames that suffice for the brackets of a text. -/
def weight (s : List Char) : Nat :=
  callFrames * s.count '(' + 2 * s.countP Literal.isOpening

theorem weight_mono {s t : List Char} (h : s <:+: t) : weight s ≤ weight t :=
  Nat.add_le_add (Nat.mul_le_mul_left _ (h.sublist.count_le _))
    (Nat.mul_le_mul_left _ h.sublist.countP_le)

theorem frames_le_weight (s : List Char) : Literal.frames s ≤ weight s :=
  (Literal.frames_le s).trans (Nat.le_add_left _ _)

/-- The parenthesis of a call weighs as much as the call takes. -/
theorem callFrames_add_weight_le {s callee text : List Char} (hparen : '(' ∈ s)
    (h : callParts s = .ok (callee, text)) : callFrames + weight text ≤ weight s := by
  obtain ⟨before, behind, rfl, hbefore⟩ := List.eq_append_cons_of_mem hparen
  have htext := infix_of_callParts h
  rw [takeWhile_before hbefore, drop_opener] at htext
  have hweight : weight ('(' :: behind) = callFrames + weight behind := by
    rw [weight, List.count_cons_self, List.countP_cons_of_neg (by decide), Nat.mul_succ, weight]
    omega
  calc
    _ ≤ callFrames + weight behind := Nat.add_le_add_left (weight_mono htext) _
    _ ≤ _ := hweight ▸ weight_mono (List.suffix_append before _).isInfix

variable {scope : Scope}

theorem framesAll_argumentsWith_le {read : List Char → Expr} {text : List Char}
    (h : ∀ s, s <:+: text → (read s).frames scope ≤ weight s) :
    framesAll scope (argumentsWith read text) ≤ weight text := by
  unfold argumentsWith
  cases hpieces : splitArguments text with
  | error fault => exact Nat.zero_le _
  | ok pieces =>
    have hpiece := infix_of_splitArguments hpieces
    dsimp only
    clear hpieces
    induction pieces with
    | nil => exact Nat.zero_le _
    | cons piece pieces ih =>
      rw [List.forall_mem_cons] at hpiece
      rw [List.map_cons, framesAll]
      exact Nat.max_le.mpr
        ⟨(h piece hpiece.1).trans (weight_mono hpiece.1), ih hpiece.2⟩

theorem frames_ofLiteral_le (s : List Char) : (ofLiteral s).frames scope ≤ weight s := by
  unfold ofLiteral
  cases Literal.read s <;> exact frames_le_weight s

theorem frames_readWithin_le (bound : Nat) (s : List Char) :
    (readWithin bound s).frames scope ≤ weight s := by
  induction bound generalizing s with
  | zero => exact Nat.zero_le _
  | succ bound ih =>
    refine Nat.le_trans ?_ (weight_mono (infix_trim s))
    unfold readWithin
    dsimp only
    split
    · exact Nat.zero_le _
    · split
      · rename_i hparen
        cases hparts : callParts (trim s) with
        | error fault => exact Nat.zero_le _
        | ok parts =>
          obtain ⟨callee, text⟩ := parts
          have hcall := callFrames_add_weight_le (by simpa using hparen) hparts
          refine Nat.le_trans ?_ hcall
          dsimp only
          split
          · refine Nat.add_le_add_left (framesAll_argumentsWith_le fun s _ ↦ ?_) _
            split
            · exact frames_ofLiteral_le s
            · exact ih s
          · unfold frames
            refine Nat.add_le_add_left ?_ _
            split
            · exact frames_le_weight text
            · exact framesAll_argumentsWith_le fun s _ ↦ ih s
      · split <;> exact Nat.zero_le _

theorem frames_read_le (s : List Char) : (read s).frames scope ≤ weight s :=
  frames_readWithin_le _ s

end Expr

namespace Workspace

variable {w : Workspace} {n : Nat}

theorem step_of_weight_le {raw : List Char} (h : Expr.weight raw ≤ n) (number : Nat) :
    w.step number raw (some n) = w.step number raw := by
  obtain hsame | ⟨_, -, -, hexhausts⟩ := w.step_in_cases number raw (some n)
  · exact hsame
  · obtain ⟨_, target, expression, ⟨⟩, hline, hlt, -⟩ := hexhausts.statement
    have hframes : (Expr.read expression).frames w.scope ≤ n :=
      calc
        _ ≤ Expr.weight expression := Expr.frames_read_le expression
        _ ≤ Expr.weight raw :=
          Expr.weight_mono ((infix_of_assignment hline).trans (w.infix_code raw))
        _ ≤ n := h
    omega

theorem run_of_weight_le {raws : List (List Char)} (h : ∀ raw ∈ raws, Expr.weight raw ≤ n)
    (number : Nat) : w.run number raws (some n) = w.run number raws := by
  induction raws generalizing w number with
  | nil => rfl
  | cons raw rest ih =>
    rw [List.forall_mem_cons] at h
    have hsame : w.step number raw (some n) = w.step number raw := step_of_weight_le h.1 number
    cases hstep : w.step number raw with
    | mk r w' =>
      rw [hstep] at hsame
      cases r with
      | error fault => rw [run_cons_error hsame, run_cons_error hstep]
      | ok out => rw [run_cons_ok hsame, run_cons_ok hstep, ih h.2]

/-- A limit makes no difference to a code whose lines have few brackets. -/
theorem execute_of_weight_le {code : List Char} (h : ∀ raw ∈ lines code, Expr.weight raw ≤ n) :
    w.execute code (some n) = w.execute code := by
  rw [execute_eq w code (some n), execute_eq w code, run_of_weight_le h]

/-! ## Codes that are nested too deep -/

end Workspace

end WaveNotebook
