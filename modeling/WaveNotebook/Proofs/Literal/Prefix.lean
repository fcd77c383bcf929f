import WaveNotebook.Proofs.Literal.Scan

/-!
# Beginnings of literals

A reader refuses the first token with which no literal can go on. What it has consumed up to there
can be completed: a place for a value takes a number, a key takes a colon and a number, and then the
open frames are closed, the innermost first. So the text before the position of a fault is the
beginning of a literal, whatever the fault is and however deep it lies.
-/

namespace WaveNotebook.Literal

/-! ## Completions -/

/-- The mark that closes a frame. -/
def Frame.closer : Frame → Char
  | list _ => ']'
  | record .. => '}'

/-- The text that closes frames. -/
def closing (frames : List Frame) : List Char :=
  frames.map Frame.closer

/-- A text that completes what a reader has consumed to a literal. -/
def State.completion : State → List Char
  | value frames => '0' :: closing frames
  | item frames => ']' :: closing frames
  | after _ frames => closing frames
  | firstKey => ['}']
  | key _ => ['x', ':', '0', '}']
  | colon .. => [':', '0', '}']

theorem Frame.closer_mem_marks (frame : Frame) : frame.closer ∈ marks := by
  cases frame with
  | list items => exact (by decide : ']' ∈ marks)
  | record fields key => exact (by decide : '}' ∈ marks)

theorem spells_closing (frames : List Frame) :
    Spells (frames.map fun frame ↦ .mark frame.closer) (closing frames) := by
  induction frames with
  | nil => exact .nil
  | cons frame frames ih => exact ih.mark frame.closer_mem_marks

/-- A zero is a number. -/
theorem exists_spells_zero {tokens : List Token} {s : List Char} (hs : Spells tokens s) :
    ∃ n, Spells (.numeral n :: tokens) ('0' :: s) := by
  have hzero : Digits ['0'] := ⟨List.cons_ne_nil _ _, List.forall_mem_singleton.mpr rfl⟩
  exact ⟨_, .token (.numeral (.mk .absent (.whole hzero) .absent)) hs⟩

/-- Behind a complete value, the frames can be closed one after the other. -/
theorem Opens.exists_value {frames : List Frame} {tokens inner : List Token} {d : Datum}
    (h : Opens frames tokens) (hd : Value frames.isEmpty inner d) :
    ∃ d', Value true (tokens ++ inner ++ frames.map fun frame ↦ .mark frame.closer) d' := by
  induction frames generalizing tokens inner d with
  | nil =>
    cases h
    exact ⟨d, by simpa using hd⟩
  | cons frame frames ih =>
    cases frame with
    | list items =>
      obtain ⟨before, all, hbefore, hall, heq⟩ := h.list_cases hd
      obtain ⟨d', hd'⟩ := ih hbefore (.list hall)
      exact ⟨d', by simpa [heq, Frame.closer] using hd'⟩
    | record fields key =>
      obtain ⟨rfl, all, pairs, hpairs, -, heq⟩ := h.record_cases hd
      exact ⟨_, by simpa [heq, Frame.closer] using Value.record hpairs⟩

/-- What is open in a place for a value can be completed with a number. -/
theorem Opens.exists_completion {frames : List Frame} {tokens : List Token}
    (h : Opens frames tokens) :
    ∃ rest d, Value true (tokens ++ rest) d ∧ Spells rest ('0' :: closing frames) := by
  obtain ⟨n, hn⟩ := exists_spells_zero (spells_closing frames)
  obtain ⟨d, hd⟩ := h.exists_value (.number n)
  exact ⟨_, d, by simpa using hd, hn⟩

/-- What a reader has consumed is the beginning of a literal. -/
theorem State.Consumed.exists_completion {s : State} {tokens : List Token} (h : s.Consumed tokens) :
    ∃ rest d, Value true (tokens ++ rest) d ∧ Spells rest s.completion := by
  cases s with
  | value frames => exact Opens.exists_completion h
  | item frames =>
    obtain ⟨before, hbefore, rfl⟩ := h
    obtain ⟨d, hd⟩ := hbefore.exists_value .emptyList
    exact ⟨_, d, by simpa using hd, (spells_closing frames).mark (by decide)⟩
  | after d frames =>
    obtain ⟨before, inner, hbefore, hd, rfl⟩ := h
    obtain ⟨d', hd'⟩ := hbefore.exists_value hd
    exact ⟨_, d', hd', spells_closing frames⟩
  | firstKey =>
    obtain rfl : tokens = [.mark '{'] := h
    exact ⟨[.mark '}'], _, .emptyRecord, Spells.nil.mark (by decide)⟩
  | key fields =>
    obtain ⟨rest, d, hd, hrest⟩ := (Opens.field h (.word ['x'])).exists_completion
    refine ⟨.word ['x'] :: .mark ':' :: rest, d, by simpa using hd, ?_⟩
    exact .token (a := ['x']) (.word (by decide)) (hrest.mark (by decide))
  | colon fields name =>
    obtain ⟨before, t, hbefore, hkey, rfl⟩ := h
    obtain ⟨rest, d, hd, hrest⟩ := (Opens.field hbefore hkey).exists_completion
    exact ⟨.mark ':' :: rest, d, by simpa using hd, hrest.mark (by decide)⟩

/-! ## Texts up to a fault -/

/-- A reader that stops with a fault has consumed the tokens before it, or all of them. -/
theorem State.Consumed.exists_of_run_error {s : State} {tokens : List Token} (h : s.Consumed tokens)
    {stop : ℕ} {ls : List Lexeme} {e : LiteralError} (hrun : s.run stop ls = .error e) :
    ∃ before, (∃ s' : State, s'.Consumed (tokens ++ before.map (·.token))) ∧
      (ls = before ∧ e.position = stop ∨
        ∃ l behind, ls = before ++ l :: behind ∧ e.position = l.position) := by
  induction ls generalizing s tokens with
  | nil =>
    refine ⟨[], ⟨s, by simpa using h⟩, .inl ⟨rfl, ?_⟩⟩
    obtain hstop | ⟨l, hl, -⟩ := State.position_of_run_error hrun
    · exact hstop
    · cases hl
  | cons l ls ih =>
    rw [State.run] at hrun
    cases hstep : s.step l with
    | error fault =>
      rw [hstep] at hrun
      cases hrun
      exact ⟨[], ⟨s, by simpa using h⟩, .inr ⟨l, ls, rfl, rfl⟩⟩
    | ok s' =>
      rw [hstep] at hrun
      obtain ⟨before, ⟨s'', hs''⟩, hplace⟩ := ih (h.step hstep) hrun
      refine ⟨l :: before, ⟨s'', by simpa using hs''⟩, ?_⟩
      obtain ⟨rfl, hstop⟩ | ⟨l', behind, rfl, hposition⟩ := hplace
      · exact .inl ⟨rfl, hstop⟩
      · exact .inr ⟨l', behind, rfl, hposition⟩

/-- A token that a literal can have is spelled by the characters that it takes. -/
theorem exists_spelling_of_legal {c : Char} {cs : List Char} (h : (tokenAt c cs).1.Legal) :
    ∃ a rest, (tokenAt c cs).2 = a.length ∧ Spelling (tokenAt c cs).1 (c :: a) ∧
      cs = a ++ rest := by
  obtain hfound | hfound | ⟨t, a, rest, hfound, hspelling, rfl⟩ := tokenAt_cases c cs
  · rw [hfound] at h
    exact h.elim
  · rw [hfound] at h ⊢
    exact ⟨[], cs, rfl, .mark h, rfl⟩
  · rw [hfound]
    exact ⟨a, rest, rfl, hspelling, rfl⟩

/-- The text before a token is spelled by the tokens before it. -/
theorem spells_take_lexemes (p : ℕ) (s : List Char) {before behind : List Lexeme} {l : Lexeme}
    (h : lexemes p s = before ++ l :: behind) (hlegal : ∀ l' ∈ before, l'.token.Legal) :
    p ≤ l.position ∧ Spells (before.map (·.token)) (s.take (l.position - p)) := by
  induction p, s using lexemes.induct generalizing before with
  | case1 p =>
    rw [lexemes_nil] at h
    exact absurd h (by simp)
  | case2 p c cs hc ih =>
    rw [lexemes_cons_of_blank hc] at h
    obtain ⟨hle, hspells⟩ := ih h hlegal
    refine ⟨by omega, ?_⟩
    rw [show l.position - p = l.position - (p + 1) + 1 by omega, List.take_succ_cons]
    exact .blank hc hspells
  | case3 p c cs hc token taken htoken ih =>
    rw [lexemes_cons_of_token (by simpa using hc)] at h
    cases before with
    | nil =>
      obtain ⟨rfl, -⟩ := List.cons.inj h
      exact ⟨le_rfl, by simpa using Spells.nil⟩
    | cons first before =>
      obtain ⟨rfl, hrest⟩ := List.cons.inj h
      obtain ⟨hfirst, hbefore⟩ := List.forall_mem_cons.mp hlegal
      obtain ⟨a, rest, htaken, hspelling, rfl⟩ := exists_spelling_of_legal hfirst
      rw [htoken] at hrest htaken hspelling
      dsimp only at hrest htaken hspelling
      subst htaken
      rw [List.drop_left] at hrest ih
      obtain ⟨hle, hspells⟩ := ih hrest hbefore
      refine ⟨by omega, ?_⟩
      rw [← List.cons_append, show l.position - p =
          (c :: a).length + (l.position - (p + 1 + a.length)) by
        rw [List.length_cons]
        omega, List.take_length_add_append, List.map_cons, htoken]
      exact .token hspelling hspells

/-- The text before the position of a fault is the beginning of a literal. -/
theorem read_viablePrefix {text : List Char} {e : LiteralError} (h : read text = .error e) :
    e.position ≤ text.length ∧
      ∃ continuation d, read (text.take e.position ++ continuation) = .ok d := by
  have hstart : State.start.Consumed [] := .outermost
  obtain ⟨before, ⟨s, hs⟩, hplace⟩ := hstart.exists_of_run_error h
  rw [List.nil_append] at hs
  obtain ⟨rest, d, hd, hrest⟩ := hs.exists_completion
  have hlegal : ∀ l ∈ before, l.token.Legal := fun l hl ↦
    hd.tidy.legal _ (List.mem_append_left _ (List.mem_map_of_mem hl))
  have hspells : e.position ≤ text.length ∧
      Spells (before.map (·.token)) (text.take e.position) := by
    obtain ⟨hall, hstop⟩ | ⟨l, behind, hsplit, hposition⟩ := hplace
    · rw [hstop, List.take_length, ← hall]
      exact ⟨le_rfl, spells_lexemes 0 text (hall ▸ hlegal)⟩
    · rw [hposition]
      have hmem : l ∈ lexemes 0 text := by simp [hsplit]
      have hle := position_le_of_mem_lexemes 0 text l hmem
      exact ⟨by simpa using hle, (spells_take_lexemes 0 text hsplit hlegal).2⟩
  exact ⟨hspells.1, s.completion, d,
    read_eq_ok_iff_denotes.mpr ⟨_, hspells.2.append hrest, hd⟩⟩

/-- A record in a list in a record is refused, but the list can be completed. -/
theorem read_viablePrefix_nestedRecord :
    ∃ e, read "\x7ba: [1, \x7bb".toList = .error e ∧ e.position = 8 ∧
      8 ≤ "\x7ba: [1, \x7bb".toList.length ∧
      ∃ continuation d, read ("\x7ba: [1, ".toList ++ continuation) = .ok d := by
  have hplace : Except.casesOn (motive := fun _ ↦ ℕ) (read "\x7ba: [1, \x7bb".toList)
      (fun e ↦ e.position) (fun _ ↦ 0) = 8 := by decide +kernel
  cases h : read "\x7ba: [1, \x7bb".toList with
  | ok d =>
    rw [h] at hplace
    cases hplace
  | error e =>
    rw [h] at hplace
    have hposition : e.position = 8 := hplace
    have hviable := read_viablePrefix h
    rw [hposition] at hviable
    exact ⟨e, rfl, hposition, hviable⟩

end WaveNotebook.Literal
