import WaveNotebook.Fault
import WaveNotebook.Proofs.Scan.Split

/-!
# Balanced texts

A text is balanced if its quotes are closed and if outside quoted spans each bracket is closed by
one of its kind, the innermost first. These are the texts that can be split at the top level. The
proof follows a text through the states of the scan: from each state, the text that is left must
close the open quote and then the brackets that are due one after the other, with balanced texts
between them. Splitting and joining with the separator undo each other.
-/

namespace WaveNotebook.Scan

open Text Workspace

/-- Texts of plain characters, closed quoted spans, and balanced texts in brackets. -/
inductive Balanced : List Char → Prop
  | nil : Balanced []
  | plain {c s} (hc : Plain c) (hs : Balanced s) : Balanced (c :: s)
  | span {quote inner s} (hquote : isQuote quote = true) (hinner : quote ∉ inner)
    (hs : Balanced s) : Balanced (quote :: (inner ++ quote :: s))
  | pair {opener closer inner s} (h : closerOf opener = some closer) (hinner : Balanced inner)
    (hs : Balanced s) : Balanced (opener :: (inner ++ closer :: s))

/-- The faults of quotes and brackets. -/
inductive Unbalanced : TextFault → Prop
  | unmatched (bracket) : Unbalanced (.unmatched bracket)
  | openQuote : Unbalanced .openQuote

/-! ## Brackets -/

theorem of_closerOf {opener closer : Char} (h : closerOf opener = some closer) :
    isQuote opener = false ∧ isQuote closer = false ∧ closerOf closer = none ∧
      openerOf closer = some opener := by
  unfold closerOf at h
  split at h
  all_goals cases h
  all_goals exact ⟨rfl, rfl, rfl, rfl⟩

theorem closerOf_of_openerOf {opener closer : Char} (h : openerOf closer = some opener) :
    closerOf opener = some closer := by
  unfold openerOf at h
  split at h
  all_goals cases h
  all_goals rfl

section

variable {opener closer : Char} (h : closerOf opener = some closer) (due : List Char)

include h

theorem advances_opener : Advances opener none due none (closer :: due) :=
  .opener (of_closerOf h).1 h

theorem advances_closer : Advances closer none (closer :: due) none due := by
  obtain ⟨-, hquote, hcloser, hopener⟩ := of_closerOf h
  exact .closer hquote hcloser (by simp [hopener])

end

/-! ## The states of the scan -/

/-- What the characters of a text do, one after the other, to the open quote and the brackets that
are due. -/
inductive Scans : List Char → Option Char → List Char → Option Char → List Char → Prop
  | nil {quote due} : Scans [] quote due quote due
  | cons {c s quote due quote₁ due₁ quote' due'} (h : Advances c quote due quote₁ due₁)
    (hs : Scans s quote₁ due₁ quote' due') : Scans (c :: s) quote due quote' due'

section

variable {s t : List Char} {quote quote' : Option Char} {due due' : List Char}

theorem scans_append : Scans (s ++ t) quote due quote' due' ↔
    ∃ quote₁ due₁, Scans s quote due quote₁ due₁ ∧ Scans t quote₁ due₁ quote' due' := by
  constructor
  · intro h
    induction s generalizing quote due with
    | nil => exact ⟨quote, due, .nil, h⟩
    | cons c s ih =>
      cases h with
      | cons hc h =>
        obtain ⟨quote₁, due₁, hs, ht⟩ := ih h
        exact ⟨quote₁, due₁, .cons hc hs, ht⟩
  · rintro ⟨quote₁, due₁, hs, ht⟩
    induction hs with
    | nil => exact ht
    | cons hc _ ih => exact .cons hc (ih ht)

/-- The open quote is the one that all scanners see. -/
theorem Scans.quote_eq (h : Scans s quote due quote' due') : quote' = openQuote quote s := by
  induction h with
  | nil => rfl
  | cons hc _ ih => rw [openQuote_cons, ← hc.quote_eq, ih]

/-- A text can be split if all is closed behind it. -/
theorem exists_splitFrom_iff (sep : Char) :
    (∃ pieces, splitFrom sep quote due s = .ok pieces) ↔ Scans s quote due none [] := by
  constructor
  · rintro ⟨pieces, h⟩
    induction s generalizing quote due pieces with
    | nil =>
      obtain ⟨rfl, rfl, -⟩ := splitFrom_nil h
      exact .nil
    | cons c s ih =>
      obtain ⟨rfl, rfl, -, hplain, rest, hrest, -⟩ | ⟨_, _, rest, hadvances, -, hrest, -⟩ :=
        splitFrom_cons_ok h
      · exact .cons (.other hplain) (ih rest hrest)
      · exact .cons hadvances (ih rest hrest)
  · intro h
    generalize hquote : (none : Option Char) = quote' at h
    generalize hdue : ([] : List Char) = due' at h
    induction h with
    | nil =>
      subst hquote hdue
      exact ⟨[[]], rfl⟩
    | @cons c s quote due quote₁ due₁ _ _ hc _ ih =>
      obtain ⟨rest, hrest⟩ := ih hquote hdue
      by_cases hcut : quote = none ∧ due = [] ∧ c = sep ∧ Plain c
      · -- a separator leaves the state as it is, like any plain character
        obtain ⟨rfl, rfl, rfl, hplain⟩ := hcut
        have hstate : quote₁ = none ∧ due₁ = [] := by
          cases hc with
          | quote h => exact absurd (hplain.quote.symm.trans h) Bool.false_ne_true
          | opener _ h => exact nomatch hplain.closer.symm.trans h
          | other _ => exact ⟨rfl, rfl⟩
        obtain ⟨rfl, rfl⟩ := hstate
        exact ⟨[] :: rest, by rw [splitFrom_sep hplain, hrest]; rfl⟩
      · exact ⟨extend c rest, by rw [splitFrom_of_advances hc hcut, hrest]; rfl⟩

/-! ## Balanced texts are scanned to their end -/

theorem scans_span {q : Char} (h : q ∉ s) : Scans (s ++ [q]) (some q) due none due := by
  induction s with
  | nil =>
    have hclose : Advances q (some q) due (quoteAfter (some q) q) due := .inside
    rw [quoteAfter_self] at hclose
    exact .cons hclose .nil
  | cons c s ih =>
    have hc : c ≠ q := fun heq ↦ h (heq ▸ List.mem_cons_self)
    have hinside : Advances c (some q) due (quoteAfter (some q) c) due := .inside
    rw [quoteAfter_of_ne hc] at hinside
    exact .cons hinside (ih fun hmem ↦ h (List.mem_cons_of_mem _ hmem))

/-- A balanced text leaves the state as it is. -/
theorem Balanced.scans (h : Balanced s) (due : List Char) : Scans s none due none due := by
  induction h generalizing due with
  | nil => exact .nil
  | plain hc _ ih => exact .cons (.other hc) (ih due)
  | @span quote inner s hquote hinner _ ih =>
    have hspan := scans_append.mpr ⟨_, _, scans_span hinner, ih due⟩
    rw [List.append_assoc, List.singleton_append] at hspan
    exact .cons (.quote hquote) hspan
  | pair h _ _ ihinner ih =>
    refine .cons (advances_opener h due) (scans_append.mpr ⟨_, _, ihinner _, ?_⟩)
    exact .cons (advances_closer h due) (ih due)

theorem Balanced.openQuote_eq (h : Balanced s) : openQuote none s = none :=
  (h.scans []).quote_eq.symm

theorem Balanced.append (hs : Balanced s) (ht : Balanced t) : Balanced (s ++ t) := by
  induction hs with
  | nil => exact ht
  | plain hc _ ih => exact .plain hc ih
  | span hquote hinner _ ih =>
    rw [List.cons_append, List.append_assoc, List.cons_append]
    exact .span hquote hinner ih
  | pair h hinner _ _ ih =>
    rw [List.cons_append, List.append_assoc, List.cons_append]
    exact .pair h hinner ih

theorem balanced_of_blanks (h : Blanks s) : Balanced s := by
  induction s with
  | nil => exact .nil
  | cons c s ih =>
    obtain ⟨hc, hs⟩ := blanks_cons_iff.mp h
    exact .plain (plain_of_isBlank hc) (ih hs)

/-! ## What is left of a text that is scanned to its end -/

/-- The text closes the brackets that are due, the first one first, with balanced texts around
them. -/
inductive Closes : List Char → List Char → Prop
  | nil {text} (hs : Balanced text) : Closes [] text
  | cons {opener closer rest a text} (h : closerOf opener = some closer) (ha : Balanced a)
    (hs : Closes rest text) : Closes (closer :: rest) (a ++ closer :: text)

theorem Closes.scans (h : Closes due s) : Scans s none due none [] := by
  induction h with
  | nil hs => exact hs.scans []
  | cons h ha _ ih => exact scans_append.mpr ⟨_, _, ha.scans _, .cons (advances_closer h _) ih⟩

theorem Closes.prepend (hs : Balanced s) (ht : Closes due t) : Closes due (s ++ t) := by
  cases ht with
  | nil ht => exact .nil (hs.append ht)
  | cons h ha ht =>
    rw [← List.append_assoc]
    exact .cons h (hs.append ha) ht

/-- From a state with an open quote, the text closes that one first. -/
def Completes : Option Char → List Char → List Char → Prop
  | none, due, s => Closes due s
  | some quote, due, s => ∃ inner rest, quote ∉ inner ∧ s = inner ++ quote :: rest ∧ Closes due rest

theorem Completes.cons {c : Char} (h : Advances c quote due quote' due')
    (hs : Completes quote' due' s) : Completes quote due (c :: s) := by
  cases h with
  | @inside q =>
    by_cases hc : c = q
    · rw [hc, quoteAfter_self] at hs
      exact ⟨[], s, List.not_mem_nil, by rw [hc, List.nil_append], hs⟩
    · rw [quoteAfter_of_ne hc] at hs
      obtain ⟨inner, rest, hinner, rfl, hrest⟩ := hs
      refine ⟨c :: inner, rest, ?_, rfl, hrest⟩
      rw [List.mem_cons, not_or]
      exact ⟨Ne.symm hc, hinner⟩
  | quote hquote =>
    obtain ⟨inner, rest, hinner, rfl, hrest⟩ := hs
    have hspan : Balanced (c :: (inner ++ [c])) := .span hquote hinner .nil
    change Closes due (c :: (inner ++ c :: rest))
    simpa using hrest.prepend hspan
  | @opener closer _ _ h =>
    cases hs with
    | @cons _ _ _ inner rest _ hinner hrest =>
      have hpair := Balanced.pair h hinner .nil
      change Closes due (c :: (inner ++ closer :: rest))
      simpa using hrest.prepend hpair
  | closer _ _ h =>
    obtain ⟨opener, hopener⟩ := Option.isSome_iff_exists.mp h
    exact Closes.cons (closerOf_of_openerOf hopener) .nil hs
  | other h => exact Closes.prepend (.plain h .nil) hs

theorem Scans.completes (h : Scans s quote due none []) : Completes quote due s := by
  generalize hquote : (none : Option Char) = quote' at h
  generalize hdue : ([] : List Char) = due' at h
  induction h with
  | nil =>
    subst hquote hdue
    exact .nil .nil
  | cons hc _ ih => exact (ih hquote hdue).cons hc

theorem scans_iff_closes : Scans s none due none [] ↔ Closes due s :=
  ⟨Scans.completes, Closes.scans⟩

theorem balanced_iff_scans : Balanced s ↔ Scans s none [] none [] := by
  rw [scans_iff_closes]
  constructor
  · exact .nil
  · rintro ⟨hs⟩
    assumption

/-- The texts that can be split, whatever the separator. -/
theorem exists_splitTopLevel_iff (sep : Char) (text : List Char) :
    (∃ pieces, splitTopLevel sep text = .ok pieces) ↔ Balanced text :=
  (exists_splitFrom_iff sep).trans balanced_iff_scans.symm

end

/-! ## Texts of one piece -/

theorem splitFrom_span {sep q : Char} {inner : List Char} (h : q ∉ inner) (due t : List Char) :
    splitFrom sep (some q) due (inner ++ q :: t) =
      prepend (inner ++ [q]) <$> splitFrom sep none due t := by
  induction inner with
  | nil =>
    rw [List.nil_append, splitFrom, quoteAfter_self]
    rfl
  | cons c inner ih =>
    rw [List.mem_cons, not_or] at h
    rw [List.cons_append, splitFrom, quoteAfter_of_ne (Ne.symm h.1), ih h.2]
    exact map_extend_prepend ..

/-- In brackets there is no place to cut a balanced text. -/
theorem Balanced.splitFrom_append {s : List Char} (h : Balanced s) (sep : Char) {due : List Char}
    (hdue : due ≠ []) (t : List Char) :
    splitFrom sep none due (s ++ t) = prepend s <$> splitFrom sep none due t := by
  induction h generalizing due t with
  | nil => exact (id_map _).symm
  | @plain c s hc _ ih =>
    calc
      _ = extend c <$> splitFrom sep none due (s ++ t) :=
        splitFrom_plain hc (fun h ↦ hdue h.2) (s ++ t)
      _ = prepend (c :: s) <$> splitFrom sep none due t := by rw [ih hdue, map_extend_prepend]
  | @span quote inner s hquote hinner _ ih =>
    calc
      _ = extend quote <$> splitFrom sep (some quote) due (inner ++ quote :: s ++ t) :=
        splitFrom_of_advances (.quote hquote) (fun h ↦ hdue h.2.1) _
      _ = extend quote <$> prepend (inner ++ [quote]) <$> prepend s <$>
          splitFrom sep none due t := by
        rw [List.append_assoc, List.cons_append, splitFrom_span hinner, ih hdue]
      _ = prepend (quote :: (inner ++ quote :: s)) <$> splitFrom sep none due t := by
        rw [map_prepend_prepend, map_extend_prepend, List.append_assoc, List.singleton_append]
  | @pair opener closer inner s h _ _ ihinner ih =>
    calc
      _ = extend opener <$> splitFrom sep none (closer :: due) (inner ++ closer :: s ++ t) :=
        splitFrom_of_advances (advances_opener h due) (fun h ↦ hdue h.2.1) _
      _ = extend opener <$> prepend inner <$> extend closer <$> prepend s <$>
          splitFrom sep none due t := by
        rw [List.append_assoc, List.cons_append, ihinner (List.cons_ne_nil _ _),
          splitFrom_of_advances (advances_closer h due) fun h ↦ List.cons_ne_nil _ _ h.2.1, ih hdue]
      _ = prepend (opener :: (inner ++ closer :: s)) <$> splitFrom sep none due t := by
        rw [map_extend_prepend closer, map_prepend_prepend, map_extend_prepend]

namespace IsPiece

variable {sep : Char} {s t : List Char}

theorem balanced (h : IsPiece sep s) : Balanced s :=
  (exists_splitTopLevel_iff sep s).mp ⟨_, h⟩

theorem append (hs : IsPiece sep s) (ht : IsPiece sep t) : IsPiece sep (s ++ t) := by
  have hjoin := Scan.splitFrom_append hs t
  rw [show splitFrom sep none [] t = .ok [t] from ht] at hjoin
  exact hjoin.trans (congrArg Except.ok (prepend_cons s t []))

theorem of_forall (h : ∀ c ∈ s, Plain c ∧ c ≠ sep) : IsPiece sep s := by
  induction s with
  | nil => rfl
  | cons c s ih =>
    have hc := h c List.mem_cons_self
    have hs : IsPiece sep s := ih fun d hd ↦ h d (List.mem_cons_of_mem _ hd)
    exact (splitFrom_plain hc.1 (fun heq ↦ hc.2 heq.1) s).trans (map_extend_eq_ok_iff.mpr hs)

theorem span {q : Char} {inner : List Char} (hquote : isQuote q = true) (h : q ∉ inner) :
    IsPiece sep (q :: (inner ++ [q])) := by
  have hplain : ¬Plain q := fun hq ↦ absurd (hq.quote.symm.trans hquote) Bool.false_ne_true
  calc
    splitFrom sep none [] (q :: (inner ++ [q])) =
        extend q <$> splitFrom sep (some q) [] (inner ++ [q]) :=
      splitFrom_of_advances (.quote hquote) (fun h ↦ hplain h.2.2.2) _
    _ = extend q <$> prepend (inner ++ [q]) <$> .ok [[]] := by
      rw [splitFrom_span h]
      rfl
    _ = .ok [q :: (inner ++ [q])] := by
      rw [map_extend_prepend]
      exact (congrArg Except.ok (prepend_cons ..)).trans (by rw [List.append_nil])

theorem pair {opener closer : Char} {inner : List Char} (h : closerOf opener = some closer)
    (hinner : Balanced inner) : IsPiece sep (opener :: (inner ++ [closer])) := by
  have hplain : ¬Plain opener := fun ho ↦ nomatch ho.closer.symm.trans h
  calc
    splitFrom sep none [] (opener :: (inner ++ [closer])) =
        extend opener <$> splitFrom sep none [closer] (inner ++ [closer]) :=
      splitFrom_of_advances (advances_opener h []) (fun h ↦ hplain h.2.2.2) _
    _ = extend opener <$> prepend inner <$> extend closer <$> .ok [[]] := by
      rw [hinner.splitFrom_append sep (List.cons_ne_nil _ _),
        splitFrom_of_advances (advances_closer h []) fun h ↦ List.cons_ne_nil _ _ h.2.1]
      rfl
    _ = .ok [opener :: (inner ++ [closer])] := by
      rw [map_extend_prepend]
      exact congrArg Except.ok (prepend_cons ..)

/-- A balanced text whose separators are all quoted. -/
theorem of_unmarked (hs : Balanced s) (h : Unmarked [sep] none s []) : IsPiece sep s := by
  have key : ∀ {quote due s pieces}, splitFrom sep quote due s = .ok pieces →
      Unmarked [sep] quote s [] → pieces = [s] := by
    intro quote due s pieces hsplit hsep
    induction s generalizing quote due pieces with
    | nil => exact (splitFrom_nil hsplit).2.2
    | cons c s ih =>
      obtain ⟨rfl, -, rfl, -, -⟩ | ⟨quote', due', rest, hadvances, -, hrest, rfl⟩ :=
        splitFrom_cons_ok hsplit
      · exact absurd (List.prefix_append [c] _) ((unmarked_cons_iff.mp hsep).1 rfl)
      · rw [ih hrest (hadvances.quote_eq ▸ hsep.tail)]
        rfl
  obtain ⟨pieces, hpieces⟩ := (exists_splitTopLevel_iff sep s).mpr hs
  exact hpieces.trans (congrArg Except.ok (key hpieces h))

end IsPiece

/-! ## Faults -/

section

variable {sep : Char} {quote : Option Char} {due s : List Char} {pieces : List (List Char)}

theorem eq_error_of_map {ε α β : Type} {f : α → β} {x : Except ε α} {e : ε}
    (h : f <$> x = .error e) : x = .error e := by
  cases x with
  | error e' => exact congrArg Except.error (Except.error.inj h)
  | ok a => cases h

/-- Nothing but a quote or a bracket makes the scan fail. -/
theorem unbalanced_of_splitFrom {fault : TextFault} (h : splitFrom sep quote due s = .error fault) :
    Unbalanced fault := by
  induction s generalizing quote due with
  | nil =>
    cases quote with
    | some q =>
      cases h
      exact .openQuote
    | none =>
      cases due with
      | nil => cases h
      | cons closer due =>
        cases h
        exact .unmatched _
  | cons c s ih =>
    obtain hfault | ⟨-, -, -, -, hcut⟩ | ⟨quote', due', -, hstep⟩ := splitFrom_cons sep quote due c
    · rw [hfault] at h
      cases h
      exact .unmatched c
    · rw [hcut] at h
      exact ih (eq_error_of_map h)
    · rw [hstep] at h
      exact ih (eq_error_of_map h)

/-! ## Joining what has been split -/

theorem joinWith_extend {c : Char} (hne : pieces ≠ []) :
    joinWith sep (extend c pieces) = c :: joinWith sep pieces := by
  unfold joinWith
  match pieces, hne with
  | [p], _ => simp [extend]
  | p :: q :: ps, _ => simp [extend, List.intercalate_cons_cons]

/-- Nothing of a text gets lost but the separators. -/
theorem joinWith_of_splitFrom (h : splitFrom sep quote due s = .ok pieces) :
    joinWith sep pieces = s := by
  induction s generalizing quote due pieces with
  | nil =>
    rw [(splitFrom_nil h).2.2]
    rfl
  | cons c s ih =>
    obtain ⟨-, -, rfl, -, rest, hrest, rfl⟩ | ⟨_, _, rest, -, -, hrest, rfl⟩ := splitFrom_cons_ok h
    · obtain ⟨p, ps, rfl⟩ := List.exists_cons_of_ne_nil (splitFrom_ne_nil hrest)
      calc
        joinWith c ([] :: p :: ps) = c :: joinWith c (p :: ps) := List.intercalate_cons_cons ..
        _ = c :: s := by rw [ih hrest]
    · rw [joinWith_extend (splitFrom_ne_nil hrest), ih hrest]

/-- The first piece ends the scan where it starts, and the others are found by themselves. -/
theorem splitFrom_piece {p : List Char} {ps : List (List Char)}
    (h : splitFrom sep quote due s = .ok (p :: ps)) :
    splitFrom sep quote due p = .ok [p] ∧ ∀ r ∈ ps, IsPiece sep r := by
  induction s generalizing quote due p ps with
  | nil =>
    obtain ⟨rfl, rfl, heq⟩ := splitFrom_nil h
    obtain ⟨rfl, rfl⟩ := List.cons.inj heq
    exact ⟨rfl, fun _ hr ↦ nomatch hr⟩
  | cons c s ih =>
    obtain ⟨rfl, rfl, -, -, rest, hrest, heq⟩ | ⟨quote', due', rest, -, hstep, hrest, heq⟩ :=
      splitFrom_cons_ok h
    · obtain ⟨rfl, rfl⟩ := List.cons.inj heq
      obtain ⟨r, rs, rfl⟩ := List.exists_cons_of_ne_nil (splitFrom_ne_nil hrest)
      obtain ⟨hr, hrs⟩ := ih hrest
      exact ⟨rfl, List.forall_mem_cons.mpr ⟨hr, hrs⟩⟩
    · obtain ⟨r, rs, rfl⟩ := List.exists_cons_of_ne_nil (splitFrom_ne_nil hrest)
      obtain ⟨rfl, rfl⟩ := List.cons.inj heq
      obtain ⟨hr, hrs⟩ := ih hrest
      exact ⟨by rw [hstep, hr]; rfl, hrs⟩

theorem isPiece_of_splitTopLevel (h : splitTopLevel sep s = .ok pieces) :
    ∀ p ∈ pieces, IsPiece sep p := by
  obtain ⟨p, ps, rfl⟩ := List.exists_cons_of_ne_nil (splitFrom_ne_nil h)
  exact List.forall_mem_cons.mpr (splitFrom_piece h)

end

/-- Splitting at a plain separator succeeds on exactly the balanced texts, and it is the inverse of
joining on the lists of texts of one piece. -/
theorem splitTopLevel_inverts_joinWith {sep : Char} (hsep : Plain sep) :
    (∀ text, (Balanced text → ∃ pieces, splitTopLevel sep text = .ok pieces) ∧
      (¬Balanced text → ∃ fault, splitTopLevel sep text = .error fault ∧ Unbalanced fault ∧
        (Fault.text fault).category = .invalidInput)) ∧
      (∀ text pieces, splitTopLevel sep text = .ok pieces →
        joinWith sep pieces = text ∧ ∀ p ∈ pieces, IsPiece sep p) ∧
      ∀ pieces, pieces ≠ [] → (∀ p ∈ pieces, IsPiece sep p) →
        splitTopLevel sep (joinWith sep pieces) = .ok pieces := by
  refine ⟨fun text ↦ ⟨(exists_splitTopLevel_iff sep text).mpr, fun h ↦ ?_⟩, ?_, ?_⟩
  · rw [← exists_splitTopLevel_iff sep] at h
    cases hsplit : splitTopLevel sep text with
    | ok pieces => exact absurd ⟨pieces, hsplit⟩ h
    | error fault => exact ⟨fault, rfl, unbalanced_of_splitFrom hsplit, rfl⟩
  · intro text pieces h
    exact ⟨joinWith_of_splitFrom h, isPiece_of_splitTopLevel h⟩
  · intro pieces hne h
    exact splitTopLevel_joinWith hsep hne h

/-- Brackets that cross, and pieces with commas in brackets and in quotes. -/
theorem splitTopLevel_comma :
    Plain ',' ∧ ¬Balanced "([)]".toList ∧
      (∃ fault, splitTopLevel ',' "([)]".toList = .error fault ∧ Unbalanced fault ∧
        (Fault.text fault).category = .invalidInput) ∧
      splitTopLevel ',' "f(a,'('),\",\",".toList = .ok ["f(a,'(')".toList, "\",\"".toList, []] ∧
      joinWith ',' ["f(a,'(')".toList, "\",\"".toList, []] = "f(a,'('),\",\",".toList ∧
      (∀ p ∈ ["f(a,'(')".toList, "\",\"".toList, []], IsPiece ',' p) ∧
      splitTopLevel ',' (joinWith ',' ["f(a,'(')".toList, "\",\"".toList, []]) =
        .ok ["f(a,'(')".toList, "\",\"".toList, []] := by
  have hplain : Plain ',' := ⟨rfl, rfl, rfl⟩
  have hcross : ¬Balanced "([)]".toList := by
    rw [← exists_splitTopLevel_iff ',']
    rintro ⟨pieces, h⟩
    cases h
  obtain ⟨hbalanced, hsplit, hjoin⟩ := splitTopLevel_inverts_joinWith hplain
  obtain ⟨htext, hpieces⟩ := hsplit "f(a,'('),\",\",".toList _ rfl
  exact ⟨hplain, hcross, (hbalanced "([)]".toList).2 hcross, rfl, htext, hpieces,
    hjoin _ (List.cons_ne_nil _ _) hpieces⟩

end WaveNotebook.Scan
