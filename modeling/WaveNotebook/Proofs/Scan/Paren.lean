import WaveNotebook.Proofs.Scan.Split
import WaveNotebook.Scan.Paren

/-!
# Parentheses around a text that can be split

A text that can be split closes all its brackets, of which the parentheses are some. So the scan
for a closing parenthesis passes over it, and the parenthesis behind it is the one that is found.
-/

namespace WaveNotebook.Scan

theorem Plain.ne_paren {c : Char} (h : Plain c) : c ≠ '(' ∧ c ≠ ')' := by
  constructor
  · rintro rfl
    exact nomatch h.closer
  · rintro rfl
    exact nomatch h.opener

theorem count_due_cons (depth : Int) (due : List Char) :
    depth + ((')' :: due).count ')' : Nat) = depth + due.count ')' + 1 := by
  rw [List.count_cons_self]
  omega

/-- A character inside a piece, seen by the scan for a closing parenthesis. -/
theorem closingParen?_cons {c : Char} {quote quote' : Option Char} {due due' : List Char}
    (h : Advances c quote due quote' due') {depth : Int} (hdepth : 1 ≤ depth) (i : Nat)
    (rest : List Char) :
    closingParen? quote (depth + due.count ')') i (c :: rest) =
      closingParen? quote' (depth + due'.count ')') (i + 1) rest := by
  cases h with
  | inside => rw [closingParen?]
  | quote hquote => rw [closingParen?, if_pos hquote]
  | opener hquote h =>
    rw [closingParen?, if_neg (by simp [hquote])]
    unfold closerOf at h
    split at h
    · obtain rfl := Option.some.inj h
      rw [if_pos rfl, count_due_cons]
    · obtain rfl := Option.some.inj h
      rw [if_neg (by decide), if_neg (by decide), List.count_cons_of_ne (by decide)]
    · obtain rfl := Option.some.inj h
      rw [if_neg (by decide), if_neg (by decide), List.count_cons_of_ne (by decide)]
    · cases h
  | closer hquote hcloser h =>
    rw [closingParen?, if_neg (by simp [hquote])]
    unfold openerOf at h
    split at h
    · -- one more parenthesis is due, so this is not the last one
      rw [if_neg (by decide), if_pos rfl, count_due_cons, if_neg (by omega), Int.add_sub_cancel]
    · rw [if_neg (by decide), if_neg (by decide), List.count_cons_of_ne (by decide)]
    · rw [if_neg (by decide), if_neg (by decide), List.count_cons_of_ne (by decide)]
    · cases h
  | other hplain =>
    rw [closingParen?, if_neg (by simp [hplain.quote]), if_neg hplain.ne_paren.1,
      if_neg hplain.ne_paren.2]

/-- The depth is that around the text and one more for every closing parenthesis that is due. -/
theorem closingParen?_append {sep : Char} {quote : Option Char} {due s : List Char}
    {pieces : List (List Char)} (h : splitFrom sep quote due s = .ok pieces) {depth : Int}
    (hdepth : 1 ≤ depth) (i : Nat) (rest : List Char) :
    closingParen? quote (depth + due.count ')') i (s ++ rest) =
      closingParen? none depth (i + s.length) rest := by
  induction s generalizing quote due pieces i with
  | nil =>
    obtain ⟨rfl, rfl, -⟩ := splitFrom_nil h
    simp
  | cons c cs ih =>
    have hlength : i + (c :: cs).length = i + 1 + cs.length := by
      rw [List.length_cons]
      omega
    rw [hlength, List.cons_append]
    obtain ⟨rfl, rfl, -, hplain, _, hrest, -⟩ | ⟨_, _, _, hadvances, -, hrest, -⟩ :=
      splitFrom_cons_ok h
    · rw [closingParen?_cons (.other hplain) hdepth, ih hrest]
    · rw [closingParen?_cons hadvances hdepth, ih hrest]

/-- What is found is a parenthesis that the scan sees outside quoted spans. -/
theorem exists_of_closingParen? {quote : Option Char} {depth : Int} {i j : Nat} {s : List Char}
    (h : closingParen? quote depth i s = some j) : ∃ before behind,
      s = before ++ ')' :: behind ∧ j = i + before.length ∧ openQuote quote before = none := by
  induction s generalizing quote depth i with
  | nil => cases quote <;> cases h
  | cons c cs ih =>
    -- where the scan goes on, the character stands in front of what it finds
    have hnext : ∀ {depth}, closingParen? (quoteAfter quote c) depth (i + 1) cs = some j →
        ∃ before behind, c :: cs = before ++ ')' :: behind ∧ j = i + before.length ∧
          openQuote quote before = none := by
      intro depth h
      obtain ⟨before, behind, rfl, rfl, hopen⟩ := ih h
      exact ⟨c :: before, behind, rfl, by rw [List.length_cons]; omega, hopen⟩
    cases quote with
    | some q => exact hnext h
    | none =>
      unfold closingParen? at h
      by_cases hc : isQuote c
      · rw [if_pos hc] at h
        rw [quoteAfter_of_isQuote hc] at hnext
        exact hnext h
      · rw [if_neg hc] at h
        rw [quoteAfter_of_not_isQuote (by simpa using hc)] at hnext
        split at h
        · exact hnext h
        · split at h
          · rename_i hcloser
            split at h
            · cases h
              exact ⟨[], cs, by rw [hcloser]; rfl, rfl, rfl⟩
            · exact hnext h
          · exact hnext h

/-! ## A text with a pair of brackets -/

section

variable (before inner behind : List Char) (opener closer : Char)

theorem pair_eq_append : before ++ opener :: (inner ++ closer :: behind) =
    (before ++ opener :: inner) ++ closer :: behind := by
  simp

theorem length_before_closer :
    (before ++ opener :: inner).length = before.length + 1 + inner.length := by
  simp
  omega

theorem take_closer : (before ++ opener :: (inner ++ closer :: behind)).take
    (before.length + 1 + inner.length) = before ++ opener :: inner := by
  rw [pair_eq_append, ← length_before_closer before inner opener, List.take_left]

theorem drop_closer : (before ++ opener :: (inner ++ closer :: behind)).drop
    (before.length + 1 + inner.length + 1) = behind := by
  rw [pair_eq_append, ← length_before_closer before inner opener, List.drop_length_add_append]
  rfl

theorem getElem?_closer : (before ++ opener :: (inner ++ closer :: behind))[before.length + 1 +
    inner.length]? = some closer := by
  rw [pair_eq_append, ← length_before_closer before inner opener]
  simp

theorem drop_opener : (before ++ opener :: inner).drop (before.length + 1) = inner := by
  rw [List.drop_length_add_append]
  rfl

end

/-- The parenthesis that closes the one in front of a text that can be split. -/
theorem matchingParen_append {sep : Char} {s : List Char} {pieces : List (List Char)}
    (h : splitTopLevel sep s = .ok pieces) (before behind : List Char) :
    matchingParen (before ++ '(' :: (s ++ ')' :: behind)) before.length =
      .ok (before.length + 1 + s.length) := by
  have hscan := closingParen?_append h (Int.le_refl 1) (before.length + 1) (')' :: behind)
  rw [List.count_nil, Int.natCast_zero, Int.add_zero] at hscan
  unfold matchingParen
  rw [List.drop_left, closingParen?, if_neg (by decide), if_pos rfl, Int.zero_add, hscan,
    closingParen?, if_neg (by decide), if_neg (by decide), if_pos rfl, if_pos rfl]

end WaveNotebook.Scan
