import Mathlib.Data.List.Chain
import WaveNotebook.Proofs.Literal.Grammar
import WaveNotebook.Proofs.Text.Name

/-!
# The tokens of a text

The lexer takes the longest token at each place. So a text is spelled by its tokens, if the lexer
knows them all; and the tokens that spell a text are those that the lexer finds, if of any two
neighbours one is a mark. For then a blank, a mark or the end stands behind every other token, and
none of them goes on with it.
-/

namespace WaveNotebook.Literal

open Text

/-! ## What can stand behind a token -/

/-- The text is over, or goes on with a blank or a mark. -/
def Stops (s : List Char) : Prop :=
  ∀ c, s.head? = some c → isBlank c = true ∨ c ∈ marks

/-- A mark is no part of any other token. -/
theorem of_mem_marks {c : Char} (h : c ∈ marks) :
    Scan.isQuote c = false ∧ isBlank c = false ∧ isDigit c = false ∧ isPlainPart c = false ∧
      isPlainStart c = false ∧ c ∉ ['+', '-', '.', 'e', 'E'] := by
  simp only [marks, List.mem_cons, List.not_mem_nil, or_false] at h
  obtain rfl | rfl | rfl | rfl | rfl | rfl := h <;> decide

section

variable {s : List Char} (h : Stops s)

include h

theorem Stops.numeralEnds : NumeralEnds s := by
  intro c hc
  obtain hblank | hmark := h c hc
  · refine ⟨isDigit_of_isBlank hblank, ?_, ?_, ?_⟩
    all_goals
      rintro rfl
      revert hblank
      decide
  · have hnot := of_mem_marks hmark
    simp only [List.mem_cons, not_or] at hnot
    exact ⟨hnot.2.2.1, hnot.2.2.2.2.2.2.2.1, hnot.2.2.2.2.2.2.2.2.1, hnot.2.2.2.2.2.2.2.2.2.1⟩

theorem Stops.takeWhile_append {w : List Char} (hw : ∀ c ∈ w, isPlainPart c = true) :
    (w ++ s).takeWhile isPlainPart = w := by
  rw [List.takeWhile_append_of_pos hw]
  cases s with
  | nil => simp
  | cons c cs =>
    have hc : isPlainPart c = false := by
      obtain hblank | hmark := h c rfl
      · exact isPlainPart_of_isBlank hblank
      · exact (of_mem_marks hmark).2.2.2.1
    rw [List.takeWhile_cons_of_neg (by simp [hc]), List.append_nil]

end

/-! ## One token at its place -/

/-- No quote is in a class of characters that has neither of the two. -/
theorem not_isQuote_of {p : Char → Bool} {c : Char} (hc : p c = true) (hdouble : p '"' = false)
    (hsingle : p '\'' = false) : Scan.isQuote c = false := by
  rw [Bool.eq_false_iff]
  intro hquote
  simp only [Scan.isQuote, Bool.or_eq_true, beq_iff_eq] at hquote
  obtain rfl | rfl := hquote
  · rw [hsingle] at hc
    cases hc
  · rw [hdouble] at hc
    cases hc

/-- A character in front of a numeral starts no other token. -/
theorem of_numeralText {n : Numeral} {a : List Char} (h : NumeralText a n) :
    ∃ c cs, a = c :: cs ∧ Scan.isQuote c = false ∧ isBlank c = false := by
  have hdigit : ∀ c, isDigit c = true → Scan.isQuote c = false ∧ isBlank c = false := by
    intro c hc
    constructor
    · exact not_isQuote_of hc rfl rfl
    · rw [Bool.eq_false_iff]
      intro hblank
      rw [isDigit_of_isBlank hblank] at hc
      cases hc
  cases h with
  | @mk sign negative significand whole fraction exponent e hsign hsignificand hexponent =>
    cases hsign with
    | plus => exact ⟨'+', _, rfl, by decide⟩
    | minus => exact ⟨'-', _, rfl, by decide⟩
    | absent =>
      obtain ⟨c, cs, rfl, hc | rfl⟩ := hsignificand.head
      · exact ⟨c, _, rfl, hdigit c hc⟩
      · exact ⟨'.', _, rfl, by decide⟩

theorem of_isPlainStart {c : Char} (h : isPlainStart c = true) :
    Scan.isQuote c = false ∧ c ≠ '+' ∧ c ≠ '-' ∧ c ≠ '.' := by
  refine ⟨not_isQuote_of h rfl rfl, ?_, ?_, ?_⟩
  all_goals
    rintro rfl
    revert h
    decide

theorem tokenAt_of_quote {quote : Char} (hquote : Scan.isQuote quote = true) {s : List Char}
    (hs : quote ∉ s) (rest : List Char) :
    tokenAt quote (s ++ quote :: rest) = (.quoted s, s.length + 1) := by
  have hinner : (s ++ quote :: rest).takeWhile (· != quote) = s := by
    rw [List.takeWhile_append_of_pos, List.takeWhile_cons_of_neg (by simp), List.append_nil]
    intro c hc
    rw [bne_iff_ne]
    rintro rfl
    exact hs hc
  unfold tokenAt
  rw [if_pos hquote, hinner]
  exact if_pos (by simp)

theorem tokenAt_of_numeral {c : Char} {cs rest : List Char} {n : Numeral}
    (hquote : Scan.isQuote c = false) (hscan : scanNumeral (c :: cs) = some (n, rest)) :
    tokenAt c cs = (.numeral n, cs.length - rest.length) := by
  unfold tokenAt
  rw [if_neg (by simp [hquote]), hscan]

theorem tokenAt_of_word {c : Char} {cs : List Char} (hc : isPlainStart c = true) :
    tokenAt c cs =
      (.word (c :: cs.takeWhile isPlainPart), (cs.takeWhile isPlainPart).length) := by
  obtain ⟨hquote, hplus, hminus, hpoint⟩ := of_isPlainStart hc
  unfold tokenAt
  rw [if_neg (by simp [hquote]),
    scanNumeral_eq_none (isDigit_of_isPlainStart hc) hplus hminus hpoint]
  exact if_pos hc

theorem tokenAt_of_mark {c : Char} (hc : c ∈ marks) (cs : List Char) :
    tokenAt c cs = (.mark c, 0) := by
  obtain ⟨hquote, -, hdigit, -, hstart, hnot⟩ := of_mem_marks hc
  simp only [List.mem_cons, not_or] at hnot
  unfold tokenAt
  rw [if_neg (by simp [hquote]), scanNumeral_eq_none hdigit hnot.1 hnot.2.1 hnot.2.2.1]
  exact if_neg (by simp [hstart])

@[simp]
theorem lexemes_nil (p : Nat) : lexemes p [] = [] := by
  rw [lexemes.eq_def]

theorem lexemes_cons_of_blank {c : Char} (hc : isBlank c = true) (p : Nat) (cs : List Char) :
    lexemes p (c :: cs) = lexemes (p + 1) cs := by
  rw [lexemes.eq_def]
  exact if_pos hc

theorem lexemes_cons_of_token {c : Char} (hc : isBlank c = false) (p : Nat) (cs : List Char) :
    lexemes p (c :: cs) = ⟨p, c, (tokenAt c cs).1⟩ ::
      lexemes (p + 1 + (tokenAt c cs).2) (cs.drop (tokenAt c cs).2) := by
  rw [lexemes.eq_def]
  exact if_neg (by simp [hc])

def Token.IsMark : Token → Prop
  | .mark _ => True
  | _ => False

/-- The token is found at its place, and the rest behind it. -/
theorem lexemes_append {t : Token} {a s : List Char} (ht : Spelling t a)
    (hs : t.IsMark ∨ Stops s) (p : Nat) :
    ∃ c, lexemes p (a ++ s) = ⟨p, c, t⟩ :: lexemes (p + a.length) s := by
  have key : ∀ {c cs k}, a = c :: cs → isBlank c = false → tokenAt c (cs ++ s) = (t, k) →
      k = cs.length → ∃ c, lexemes p (a ++ s) = ⟨p, c, t⟩ :: lexemes (p + a.length) s := by
    rintro c cs k rfl hblank htoken rfl
    refine ⟨c, ?_⟩
    rw [List.cons_append, lexemes_cons_of_token hblank, htoken, List.drop_left, List.length_cons,
      Nat.add_assoc, Nat.add_comm 1]
  cases ht with
  | @quoted quote s' hquote hs' =>
    refine key rfl ?_ (by simpa using tokenAt_of_quote hquote hs' s) (by simp)
    simp only [Scan.isQuote, Bool.or_eq_true, beq_iff_eq] at hquote
    obtain rfl | rfl := hquote <;> decide
  | mark hc => exact key rfl (of_mem_marks hc).2.1 (tokenAt_of_mark hc _) rfl
  | numeral hn =>
    obtain ⟨c, cs, rfl, hquote, hblank⟩ := of_numeralText hn
    have hscan := scanNumeral_append hn (hs.resolve_left id).numeralEnds
    refine key rfl hblank (tokenAt_of_numeral hquote hscan) ?_
    simp
  | word hw =>
    cases a with
    | nil => cases hw
    | cons c cs =>
      simp only [isPlainName, Bool.and_eq_true, List.all_eq_true] at hw
      have htoken : tokenAt c (cs ++ s) = (.word (c :: cs), cs.length) := by
        rw [tokenAt_of_word hw.1, (hs.resolve_left id).takeWhile_append hw.2]
      exact key rfl (isBlank_of_isPlainStart hw.1) htoken rfl

/-! ## Whole texts -/

/-- Of any two neighbours, one is a mark. -/
def Separated (tokens : List Token) : Prop :=
  tokens.IsChain fun t u ↦ t.IsMark ∨ u.IsMark

theorem Spells.stops {tokens : List Token} {s : List Char} (h : Spells tokens s)
    (hmark : ∀ t ∈ tokens.head?, t.IsMark) : Stops s := by
  cases h with
  | nil => exact fun c hc ↦ nomatch hc
  | blank hc _ =>
    rintro _ ⟨⟩
    exact .inl hc
  | @token t tokens a s ht hs =>
    have htoken := hmark t rfl
    cases ht with
    | mark hc =>
      rintro _ ⟨⟩
      exact .inr hc
    | numeral _ => exact htoken.elim
    | quoted _ _ => exact htoken.elim
    | word _ => exact htoken.elim

/-- The lexer finds the tokens that a text has been spelled from. -/
theorem lexemes_of_spells {tokens : List Token} {s : List Char} (h : Spells tokens s)
    (hsep : Separated tokens) (p : Nat) : (lexemes p s).map (·.token) = tokens := by
  induction h generalizing p with
  | nil => rw [lexemes_nil, List.map_nil]
  | blank hc _ ih =>
    rw [lexemes_cons_of_blank hc]
    exact ih hsep _
  | @token t tokens a s ht hs ih =>
    obtain ⟨hneighbour, hrest⟩ := List.isChain_cons.mp hsep
    have hbehind : t.IsMark ∨ Stops s := by
      by_cases htoken : t.IsMark
      · exact .inl htoken
      · exact .inr (hs.stops fun u hu ↦ (hneighbour u hu).resolve_left htoken)
    obtain ⟨c, hc⟩ := lexemes_append ht hbehind p
    rw [hc, List.map_cons, ih hrest]

/-- A token that a literal can have. -/
def Token.Legal : Token → Prop
  | .unclosed => False
  | .mark c => c ∈ marks
  | _ => True

/-- What the lexer finds: a quote without a second one, a single character, or a token that is
spelled by the characters that it takes. -/
theorem tokenAt_cases (c : Char) (cs : List Char) :
    tokenAt c cs = (.unclosed, cs.length) ∨ tokenAt c cs = (.mark c, 0) ∨
      ∃ t a rest, tokenAt c cs = (t, a.length) ∧ Spelling t (c :: a) ∧ cs = a ++ rest := by
  unfold tokenAt
  split
  · rename_i hquote
    dsimp only
    split
    · rename_i hlength
      refine .inr (.inr ⟨.quoted (cs.takeWhile (· != c)), cs.takeWhile (· != c) ++ [c], ?_⟩)
      have hsplit := List.takeWhile_append_dropWhile (p := (· != c)) (l := cs)
      cases hrest : cs.dropWhile (· != c) with
      | nil =>
        rw [hrest, List.append_nil] at hsplit
        rw [hsplit] at hlength
        exact absurd hlength (Nat.lt_irrefl _)
      | cons d rest =>
        have hd : d = c := by
          have hhead := List.head?_dropWhile_not (· != c) cs
          rw [hrest] at hhead
          simpa using hhead
        refine ⟨rest, by simp, .quoted hquote fun hmem ↦ ?_, ?_⟩
        · simpa using List.mem_takeWhile_imp hmem
        · rw [hrest, hd] at hsplit
          rw [List.append_assoc, List.singleton_append, hsplit]
    · exact .inl rfl
  · split
    · rename_i n rest hscan
      obtain ⟨a, ha, hcs⟩ := exists_scanNumeral hscan
      obtain ⟨c', a, rfl, -, -⟩ := of_numeralText ha
      obtain ⟨rfl, rfl⟩ := List.cons.inj hcs
      exact .inr (.inr ⟨_, a, rest, by simp, .numeral ha, rfl⟩)
    · split
      · rename_i hstart
        refine .inr (.inr ⟨_, cs.takeWhile isPlainPart, cs.dropWhile isPlainPart, rfl, .word ?_,
          List.takeWhile_append_dropWhile.symm⟩)
        simp only [isPlainName, hstart, Bool.true_and, List.all_eq_true]
        exact fun d hd ↦ List.mem_takeWhile_imp hd
      · exact .inr (.inl rfl)

/-- A text is spelled by the tokens that the lexer finds. -/
theorem spells_lexemes (p : Nat) (s : List Char) (h : ∀ l ∈ lexemes p s, l.token.Legal) :
    Spells ((lexemes p s).map (·.token)) s := by
  induction p, s using lexemes.induct with
  | case1 p =>
    rw [lexemes_nil]
    exact .nil
  | case2 p c cs hc ih =>
    rw [lexemes_cons_of_blank hc] at h ⊢
    exact .blank hc (ih h)
  | case3 p c cs hc token taken htoken ih =>
    rw [lexemes_cons_of_token (by simpa using hc), htoken] at h ⊢
    have hlegal : token.Legal := h _ List.mem_cons_self
    have hrest := ih fun l hl ↦ h l (List.mem_cons_of_mem _ hl)
    rw [List.map_cons]
    obtain hfound | hfound | ⟨t, a, rest, hfound, hspelling, rfl⟩ := tokenAt_cases c cs
    · cases htoken.symm.trans hfound
      exact hlegal.elim
    · cases htoken.symm.trans hfound
      exact .token (.mark hlegal) hrest
    · cases htoken.symm.trans hfound
      rw [List.drop_left] at hrest ⊢
      exact .token hspelling hrest

/-- Every token lies inside the text. -/
theorem position_le_of_mem_lexemes (p : Nat) (s : List Char) :
    ∀ l ∈ lexemes p s, l.position ≤ p + s.length := by
  induction p, s using lexemes.induct with
  | case1 p =>
    rw [lexemes_nil]
    exact fun _ hl ↦ nomatch hl
  | case2 p c cs hc ih =>
    rw [lexemes_cons_of_blank hc]
    intro l hl
    have hposition := ih l hl
    rw [List.length_cons]
    omega
  | case3 p c cs hc token taken htoken ih =>
    have htaken : taken ≤ cs.length := by
      obtain hfound | hfound | ⟨t, a, rest, hfound, -, rfl⟩ := tokenAt_cases c cs
      all_goals cases htoken.symm.trans hfound
      · exact Nat.le_refl _
      · exact Nat.zero_le _
      · simp
    rw [lexemes_cons_of_token (by simpa using hc), htoken]
    intro l hl
    obtain rfl | hl := List.mem_cons.mp hl
    · exact Nat.le_add_right _ _
    · have hposition := ih l hl
      rw [List.length_drop] at hposition
      rw [List.length_cons]
      omega

end WaveNotebook.Literal
