import WaveNotebook.Proofs.Scan.Comment
import WaveNotebook.Scan.Split
import WaveNotebook.Workspace.Basic

/-!
# Splitting and joining

Splitting reads a text character by character. A character has no place there, or it is a
separator at the top level and cuts the text, or it goes into the piece at hand and changes which
quote is open and which brackets are due. So texts that are one piece each are found again when
they have been joined with separators. Blanks around a piece make no difference.
-/

namespace WaveNotebook.Scan

open Text

/-- A character that is no quote and no bracket. -/
structure Plain (c : Char) : Prop where
  quote : isQuote c = false
  closer : closerOf c = none
  opener : openerOf c = none

/-- What a character inside a piece does to the open quote and the brackets that are due. -/
inductive Advances (c : Char) : Option Char → List Char → Option Char → List Char → Prop
  | inside {q due} : Advances c (some q) due (quoteAfter (some q) c) due
  | quote {due} (h : isQuote c = true) : Advances c none due (some c) due
  | opener {closer due} (hquote : isQuote c = false) (h : closerOf c = some closer) :
    Advances c none due none (closer :: due)
  | closer {due} (hquote : isQuote c = false) (hopener : closerOf c = none)
    (h : (openerOf c).isSome = true) : Advances c none (c :: due) none due
  | other {due} (h : Plain c) : Advances c none due none due

/-- The open quote is the one that all scanners see. -/
theorem Advances.quote_eq {c : Char} {quote quote' : Option Char} {due due' : List Char}
    (h : Advances c quote due quote' due') : quote' = quoteAfter quote c := by
  cases h with
  | inside => rfl
  | quote h => exact (quoteAfter_of_isQuote h).symm
  | opener hquote _ | closer hquote _ _ => exact (quoteAfter_of_not_isQuote hquote).symm
  | other h => exact (quoteAfter_of_not_isQuote h.quote).symm

theorem splitFrom_plain {sep c : Char} {due : List Char} (hc : Plain c)
    (hsep : ¬(c = sep ∧ due = [])) (cs : List Char) :
    splitFrom sep none due (c :: cs) = extend c <$> splitFrom sep none due cs := by
  have hopener : ¬(openerOf c).isSome = true := by simp [hc.opener]
  cases due <;> rw [splitFrom, if_neg (by simp [hc.quote]), hc.closer] <;>
    exact (if_neg hopener).trans (if_neg hsep)

theorem splitFrom_sep {sep : Char} (hsep : Plain sep) (cs : List Char) :
    splitFrom sep none [] (sep :: cs) = ([] :: ·) <$> splitFrom sep none [] cs := by
  have hopener : ¬(openerOf sep).isSome = true := by simp [hsep.opener]
  rw [splitFrom, if_neg (by simp [hsep.quote]), hsep.closer]
  exact (if_neg hopener).trans (if_pos ⟨rfl, rfl⟩)

/-- A character that is not cut away goes into the piece at hand. -/
theorem splitFrom_of_advances {sep c : Char} {quote quote' : Option Char} {due due' : List Char}
    (h : Advances c quote due quote' due')
    (hsep : ¬(quote = none ∧ due = [] ∧ c = sep ∧ Plain c)) (cs : List Char) :
    splitFrom sep quote due (c :: cs) = extend c <$> splitFrom sep quote' due' cs := by
  cases h with
  | inside => rw [splitFrom]
  | quote h => cases due <;> rw [splitFrom, if_pos h]
  | opener hquote h => cases due <;> rw [splitFrom, if_neg (by simp [hquote]), h]
  | closer hquote hopener h =>
    rw [splitFrom, if_neg (by simp [hquote]), hopener]
    exact (if_pos h).trans (if_pos rfl)
  | other h =>
    apply splitFrom_plain h
    rintro ⟨hc, hdue⟩
    exact hsep ⟨rfl, hdue, hc, h⟩

/-- All that a character can do, whatever follows it. It is refused only if it closes a bracket
that is not due. -/
theorem splitFrom_cons (sep : Char) (quote : Option Char) (due : List Char) (c : Char) :
    (∀ cs, splitFrom sep quote due (c :: cs) = .error (.unmatched c)) ∨
      (quote = none ∧ due = [] ∧ c = sep ∧ Plain c ∧
        ∀ cs, splitFrom sep quote due (c :: cs) = ([] :: ·) <$> splitFrom sep none [] cs) ∨
      ∃ quote' due', Advances c quote due quote' due' ∧
        ∀ cs, splitFrom sep quote due (c :: cs) = extend c <$> splitFrom sep quote' due' cs := by
  by_cases hcut : quote = none ∧ due = [] ∧ c = sep ∧ Plain c
  · obtain ⟨rfl, rfl, rfl, hplain⟩ := hcut
    exact .inr (.inl ⟨rfl, rfl, rfl, hplain, splitFrom_sep hplain⟩)
  have hadvances : ∀ {quote' due'}, Advances c quote due quote' due' → ∃ quote' due',
      Advances c quote due quote' due' ∧
        ∀ cs, splitFrom sep quote due (c :: cs) = extend c <$> splitFrom sep quote' due' cs :=
    fun h ↦ ⟨_, _, h, splitFrom_of_advances h hcut⟩
  cases quote with
  | some q => exact .inr (.inr (hadvances .inside))
  | none =>
    by_cases hquote : isQuote c = true
    · exact .inr (.inr (hadvances (.quote hquote)))
    have hquote' : isQuote c = false := by simpa using hquote
    cases hcloser : closerOf c with
    | some closer => exact .inr (.inr (hadvances (.opener hquote' hcloser)))
    | none =>
      by_cases hopener : (openerOf c).isSome = true
      · cases due with
        | nil =>
          refine .inl fun cs ↦ ?_
          rw [splitFrom, if_neg hquote, hcloser]
          exact if_pos hopener
        | cons closer due =>
          by_cases hc : c = closer
          · subst hc
            exact .inr (.inr (hadvances (.closer hquote' hcloser hopener)))
          · refine .inl fun cs ↦ ?_
            rw [splitFrom, if_neg hquote, hcloser]
            exact (if_pos hopener).trans (if_neg hc)
      · exact .inr (.inr (hadvances (.other ⟨hquote', hcloser, by simpa using hopener⟩)))

section

variable {sep : Char} {quote : Option Char} {due s : List Char} {pieces : List (List Char)}

theorem splitFrom_nil (h : splitFrom sep quote due [] = .ok pieces) :
    quote = none ∧ due = [] ∧ pieces = [[]] := by
  cases quote with
  | some q => cases h
  | none =>
    cases due with
    | nil =>
      cases h
      exact ⟨rfl, rfl, rfl⟩
    | cons closer due => cases h

/-- A text that can be split begins with a separator or goes on with its first piece. -/
theorem splitFrom_cons_ok {c : Char} (h : splitFrom sep quote due (c :: s) = .ok pieces) :
    (quote = none ∧ due = [] ∧ c = sep ∧ Plain c ∧
      ∃ rest, splitFrom sep none [] s = .ok rest ∧ pieces = [] :: rest) ∨
    ∃ quote' due' rest, Advances c quote due quote' due' ∧
      (∀ cs, splitFrom sep quote due (c :: cs) = extend c <$> splitFrom sep quote' due' cs) ∧
      splitFrom sep quote' due' s = .ok rest ∧ pieces = extend c rest := by
  obtain hfault | ⟨hquote, hdue, hsep, hplain, hcut⟩ | ⟨quote', due', hadvances, hstep⟩ :=
    splitFrom_cons sep quote due c
  · rw [hfault] at h
    cases h
  · rw [hcut] at h
    cases hrest : splitFrom sep none [] s with
    | error fault => rw [hrest] at h; cases h
    | ok rest =>
      rw [hrest] at h
      cases h
      exact .inl ⟨hquote, hdue, hsep, hplain, rest, rfl, rfl⟩
  · refine .inr ⟨quote', due', ?_⟩
    have hs := hstep s
    rw [h] at hs
    cases hrest : splitFrom sep quote' due' s with
    | error fault => rw [hrest] at hs; cases hs
    | ok rest =>
      rw [hrest] at hs
      exact ⟨rest, hadvances, hstep, rfl, Except.ok.inj hs⟩

theorem splitFrom_ne_nil (h : splitFrom sep quote due s = .ok pieces) : pieces ≠ [] := by
  cases s with
  | nil =>
    rw [(splitFrom_nil h).2.2]
    exact List.cons_ne_nil _ _
  | cons c cs =>
    obtain ⟨-, -, -, -, rest, -, rfl⟩ | ⟨_, _, rest, -, -, -, rfl⟩ := splitFrom_cons_ok h
    · exact List.cons_ne_nil _ _
    · cases rest <;> exact List.cons_ne_nil _ _

theorem extend_eq_singleton {c : Char} {p : List Char} (hne : pieces ≠ [])
    (h : extend c pieces = [p]) : ∃ p', pieces = [p'] ∧ p = c :: p' := by
  cases pieces with
  | nil => exact absurd rfl hne
  | cons p' rest =>
    obtain ⟨rfl, rfl⟩ := List.cons.inj h
    exact ⟨p', rfl, rfl⟩

end

/-! ## Texts of one piece -/

/-- The text is balanced, and has no separator at the top level. -/
def IsPiece (sep : Char) (s : List Char) : Prop :=
  splitTopLevel sep s = .ok [s]

section

variable {sep : Char} {quote : Option Char} {due s : List Char}

/-- Puts a text in front of the first piece. -/
def prepend (s : List Char) (pieces : List (List Char)) : List (List Char) :=
  s.foldr extend pieces

@[simp]
theorem prepend_cons (s p : List Char) (ps : List (List Char)) :
    prepend s (p :: ps) = (s ++ p) :: ps := by
  induction s with
  | nil => rfl
  | cons c s ih => rw [prepend, List.foldr_cons, ← prepend, ih, extend, List.cons_append]

theorem map_extend_prepend {ε : Type} (c : Char) (s : List Char)
    (x : Except ε (List (List Char))) :
    extend c <$> prepend s <$> x = prepend (c :: s) <$> x :=
  (comp_map ..).symm

theorem map_prepend_prepend {ε : Type} (s t : List Char) (x : Except ε (List (List Char))) :
    prepend s <$> prepend t <$> x = prepend (s ++ t) <$> x := by
  rw [← comp_map]
  congr 1
  funext pieces
  exact List.foldr_append.symm

/-- A piece goes on with the first piece of the text behind it. -/
theorem splitFrom_append {p : List Char} (h : splitFrom sep quote due s = .ok [p])
    (t : List Char) : splitFrom sep quote due (s ++ t) = prepend s <$> splitFrom sep none [] t := by
  induction s generalizing quote due p with
  | nil =>
    obtain ⟨rfl, rfl, -⟩ := splitFrom_nil h
    exact (id_map _).symm
  | cons c cs ih =>
    obtain ⟨-, -, -, -, rest', hrest, heq⟩ | ⟨quote', due', rest', -, hstep, hrest, heq⟩ :=
      splitFrom_cons_ok h
    · -- a separator would have been the end of an earlier piece
      obtain ⟨rfl, rfl⟩ := List.cons.inj heq
      exact absurd rfl (splitFrom_ne_nil hrest)
    · obtain ⟨p', rfl, rfl⟩ := extend_eq_singleton (splitFrom_ne_nil hrest) heq.symm
      calc
        _ = extend c <$> splitFrom sep quote' due' (cs ++ t) := hstep (cs ++ t)
        _ = extend c <$> prepend cs <$> splitFrom sep none [] t := by rw [ih hrest]
        _ = prepend (c :: cs) <$> splitFrom sep none [] t := map_extend_prepend ..

/-- A piece is cut off at the separator behind it. -/
theorem splitFrom_append_sep (hsep : Plain sep) {p : List Char}
    (h : splitFrom sep quote due s = .ok [p]) (rest : List Char) :
    splitFrom sep quote due (s ++ sep :: rest) = (s :: ·) <$> splitFrom sep none [] rest := by
  rw [splitFrom_append h, splitFrom_sep hsep, ← comp_map]
  congr 1
  funext pieces
  simp

theorem joinWith_cons_cons (sep : Char) (a b : List Char) (texts : List (List Char)) :
    Workspace.joinWith sep (a :: b :: texts) = a ++ sep :: Workspace.joinWith sep (b :: texts) := by
  unfold Workspace.joinWith
  rw [List.intercalate_cons_cons, List.append_assoc, List.singleton_append]

/-- Joining texts of one piece is undone by splitting. -/
theorem splitTopLevel_joinWith (hsep : Plain sep) {pieces : List (List Char)} (hne : pieces ≠ [])
    (h : ∀ p ∈ pieces, IsPiece sep p) :
    splitTopLevel sep (Workspace.joinWith sep pieces) = .ok pieces := by
  induction pieces with
  | nil => exact absurd rfl hne
  | cons p pieces ih =>
    have hp : IsPiece sep p := h p List.mem_cons_self
    cases pieces with
    | nil =>
      rw [Workspace.joinWith, List.intercalate_singleton]
      exact hp
    | cons q pieces =>
      have hrest := ih (List.cons_ne_nil _ _) fun r hr ↦ h r (List.mem_cons_of_mem _ hr)
      unfold splitTopLevel at hrest ⊢
      rw [joinWith_cons_cons, splitFrom_append_sep hsep hp, hrest]
      rfl

/-! ## Blanks around a piece -/

theorem plain_of_isBlank {c : Char} (h : isBlank c = true) : Plain c := by
  refine ⟨isQuote_of_isBlank h, ?_, ?_⟩
  · unfold closerOf
    split <;> first | rfl | exact absurd rfl (ne_of_isBlank h (by decide))
  · unfold openerOf
    split <;> first | rfl | exact absurd rfl (ne_of_isBlank h (by decide))

theorem map_extend_eq_ok_iff {c : Char} :
    extend c <$> splitFrom sep quote due s = .ok [c :: s] ↔
      splitFrom sep quote due s = .ok [s] := by
  cases hrest : splitFrom sep quote due s with
  | error fault => exact ⟨fun h ↦ (nomatch h), fun h ↦ (nomatch h)⟩
  | ok pieces =>
    constructor
    · intro h
      obtain ⟨p, rfl, hp⟩ := extend_eq_singleton (splitFrom_ne_nil hrest) (Except.ok.inj h)
      rw [(List.cons.inj hp).2]
    · intro h
      cases h
      rfl

theorem isPiece_append_left {a : List Char} (hsep : isBlank sep = false) (ha : Blanks a) :
    IsPiece sep (a ++ s) ↔ IsPiece sep s := by
  induction a with
  | nil => rfl
  | cons c cs ih =>
    have hc : isBlank c = true := ha c List.mem_cons_self
    rw [← ih fun d hd ↦ ha d (List.mem_cons_of_mem _ hd)]
    unfold IsPiece splitTopLevel
    rw [List.cons_append, splitFrom_plain (plain_of_isBlank hc) fun h ↦ ne_of_isBlank hc hsep h.1]
    exact map_extend_eq_ok_iff

/-- Only blanks are left, which the piece at hand takes. -/
theorem splitFrom_blanks {b : List Char} (hsep : isBlank sep = false) (hb : Blanks b)
    (hquote : ∀ q ∈ quote, isQuote q = true) :
    splitFrom sep quote due b = .ok [b] ↔ splitFrom sep quote due [] = .ok [[]] := by
  induction b with
  | nil => rfl
  | cons c cs ih =>
    have hc : isBlank c = true := hb c List.mem_cons_self
    rw [← ih fun d hd ↦ hb d (List.mem_cons_of_mem _ hd)]
    cases quote with
    | some q =>
      rw [splitFrom, quoteAfter_of_isBlank hquote hc]
      exact map_extend_eq_ok_iff
    | none =>
      rw [splitFrom_plain (plain_of_isBlank hc) fun h ↦ ne_of_isBlank hc hsep h.1]
      exact map_extend_eq_ok_iff

theorem splitFrom_append_right {b : List Char} (hsep : isBlank sep = false) (hb : Blanks b)
    (hquote : ∀ q ∈ quote, isQuote q = true) :
    splitFrom sep quote due (s ++ b) = .ok [s ++ b] ↔ splitFrom sep quote due s = .ok [s] := by
  induction s generalizing quote due with
  | nil => exact splitFrom_blanks hsep hb hquote
  | cons c cs ih =>
    obtain hfault | ⟨-, -, -, -, hcut⟩ | ⟨quote', due', hadvances, hstep⟩ :=
      splitFrom_cons sep quote due c
    · rw [List.cons_append, hfault, hfault]
      exact ⟨fun h ↦ (nomatch h), fun h ↦ (nomatch h)⟩
    · have hempty : ∀ t, splitFrom sep quote due (c :: t) ≠ .ok [c :: t] := by
        intro t h
        rw [hcut] at h
        cases hrest : splitFrom sep none [] t <;> rw [hrest] at h <;> cases h
      exact ⟨fun h ↦ (hempty _ h).elim, fun h ↦ (hempty _ h).elim⟩
    · have hquote' : ∀ q ∈ quote', isQuote q = true := by
        rw [hadvances.quote_eq]
        exact isQuote_of_openQuote hquote [c]
      rw [List.cons_append, hstep, hstep, map_extend_eq_ok_iff, map_extend_eq_ok_iff]
      exact ih hquote'

/-- Blanks around a text do not make more pieces of it. -/
theorem isPiece_pad {a b : List Char} (hsep : isBlank sep = false) (ha : Blanks a) (hb : Blanks b) :
    IsPiece sep (a ++ s ++ b) ↔ IsPiece sep s := by
  rw [List.append_assoc, isPiece_append_left hsep ha]
  exact splitFrom_append_right hsep hb fun _ hq ↦ nomatch hq

end

end WaveNotebook.Scan
