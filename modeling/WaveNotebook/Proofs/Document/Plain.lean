import WaveNotebook.Proofs.Document.Cursor

/-!
# Plain text

What is written plain stands for a text in which every character stands for itself, and a line
break with the indentation behind it for a space. A colon has a character behind it, no number sign
has a space before it, and the text does not end with a space. The reader finds this text word by
word up to where no word goes on, and a text is written so if it can be.
-/

namespace WaveNotebook.Document

/-! ## Folding -/

section Folding

variable (l : Layout) (single : Bool) (column : ℕ) (before : Option Char) (s : List Char)

/-- A space is written as it is, or it is folded and stands in front of another character. -/
theorem foldedText_space : foldedText l single column before (' ' :: s) =
      ' ' :: foldedText l single (column + 1) (some ' ') s ∨
    before ≠ some ' ' ∧ s ≠ [] ∧ s.head? ≠ some ' ' ∧
      foldedText l single column before (' ' :: s) =
        l.newLine ++ foldedText l single l.indent (some ' ') s := by
  rw [foldedText, if_pos rfl]
  split
  · rename_i h
    simp only [Bool.and_eq_true, bne_iff_ne, Option.isSome_iff_ne_none] at h
    refine .inr ⟨h.1.1.2, ?_, h.2, rfl⟩
    rintro rfl
    exact h.1.2 rfl
  · exact .inl rfl

/-- A second space is written as it is. -/
theorem foldedText_second_space : foldedText l single column (some ' ') (' ' :: s) =
    ' ' :: foldedText l single (column + 1) (some ' ') s :=
  (foldedText_space l single column (some ' ') s).resolve_right fun h ↦ h.1 rfl

theorem foldedText_char {c : Char} (hspace : c ≠ ' ') (hbreak : c ≠ '\n')
    (hquote : single = false ∨ c ≠ '\'') : foldedText l single column before (c :: s) =
      c :: foldedText l single (column + 1) (some c) s := by
  have hquote : ¬(single = true ∧ c = '\'') := by
    rintro ⟨rfl, hc⟩
    exact hquote.elim (fun h ↦ nomatch h) fun h ↦ h hc
  rw [foldedText, if_neg hspace, if_neg hbreak, if_neg hquote]

end Folding

/-! ## What is written plain -/

/-- What is written plain with an indentation behind line breaks, and the text that it stands
for. -/
inductive PlainText (indent : ℕ) : List Char → List Char → Prop
  | nil : PlainText indent [] []
  | char {x w s} (hsimple : isSimple x = true) (hspace : x ≠ ' ')
    (hcolon : x = ':' → w ≠ [] ∧ Stops isGap w) (h : PlainText indent w s) :
    PlainText indent (x :: w) (x :: s)
  | space {w s} (hne : w ≠ []) (hw : Stops isBreak w) (hsign : w.head? ≠ some '#')
    (h : PlainText indent w s) : PlainText indent (' ' :: w) (' ' :: s)
  | fold {w s} (hne : w ≠ []) (hw : Stops isGap w) (hsign : w.head? ≠ some '#')
    (h : PlainText indent w s) :
    PlainText indent ('\n' :: (List.replicate indent ' ' ++ w)) (' ' :: s)

variable {indent : ℕ} {w s t : List Char}

theorem PlainText.isDocument (h : PlainText indent w s) : IsDocument w := by
  induction h with
  | nil => exact isDocument_nil
  | char hsimple _ _ _ ih => exact isDocument_cons_iff.mpr ⟨.inl hsimple, ih⟩
  | space _ _ _ _ ih => exact isDocument_cons_iff.mpr ⟨.inl rfl, ih⟩
  | fold _ _ _ _ ih =>
    exact isDocument_cons_iff.mpr
      ⟨.inr rfl, isDocument_append_iff.mpr ⟨(simple_spaces _).isDocument, ih⟩⟩

/-! ## Reading -/

theorem plainWord_char {x : Char} (hgap : isGap x = false)
    (hcolon : x = ':' → t ≠ [] ∧ Stops isGap t) :
    plainWord false (x :: t) = x :: plainWord false t := by
  have hends :
      (x == ':' && endsOr (fun y ↦ isGap y || (false && isFlowMark y)) t.head?) = false := by
    by_cases hx : x = ':'
    · obtain ⟨hne, hstops⟩ := hcolon hx
      obtain ⟨y, t, rfl⟩ := List.exists_cons_of_ne_nil hne
      simp [endsOr, stops_cons_iff.mp hstops]
    · rw [beq_false_of_ne hx, Bool.false_and]
  rw [plainWord, hends, hgap]
  rfl

theorem plainWord_of_gap (ht : Stops (fun x ↦ !isGap x) t) : plainWord false t = [] := by
  cases t with
  | nil => rfl
  | cons x t =>
    have hgap : isGap x = true := by simpa using stops_cons_iff.mp ht
    rw [plainWord, hgap]
    rfl

/-- A word ends at a gap or where the text ends. -/
theorem PlainText.exists_word (h : PlainText indent w s) (ht : plainWord false t = []) :
    ∃ a w' s', w = a ++ w' ∧ s = a ++ s' ∧ PlainText indent w' s' ∧
      Stops (fun x ↦ !isGap x) w' ∧ Simple a ∧ plainWord false (w ++ t) = a := by
  -- a gap starts here, and the word is empty
  have hgap : ∀ {w s}, PlainText indent w s → w ≠ [] → Stops (fun x ↦ !isGap x) w →
      ∃ a w' s', w = a ++ w' ∧ s = a ++ s' ∧ PlainText indent w' s' ∧
        Stops (fun x ↦ !isGap x) w' ∧ Simple a ∧ plainWord false (w ++ t) = a := by
    intro w s h hne hw
    exact ⟨[], w, s, rfl, rfl, h, hw, simple_nil, plainWord_of_gap (hw.append_right hne t)⟩
  induction h with
  | nil => exact ⟨[], [], [], rfl, rfl, .nil, stops_nil, simple_nil, ht⟩
  | @char x w s hsimple hspace hcolon h ih =>
    obtain ⟨a, w', s', rfl, rfl, hrest, hstops, hword, hread⟩ := ih
    have hcolon : x = ':' → a ++ w' ++ t ≠ [] ∧ Stops isGap (a ++ w' ++ t) := fun hx ↦ by
      obtain ⟨hne, hstops⟩ := hcolon hx
      exact ⟨List.append_ne_nil_of_left_ne_nil hne t, hstops.append_right hne t⟩
    refine ⟨x :: a, w', s', rfl, rfl, hrest, hstops, simple_cons_iff.mpr ⟨hsimple, hword⟩, ?_⟩
    rw [List.cons_append, plainWord_char (isGap_of_isSimple hsimple hspace) hcolon, hread]
  | space hne hw hsign h =>
    exact hgap (.space hne hw hsign h) (List.cons_ne_nil _ _) (stops_cons_iff.mpr rfl)
  | fold hne hw hsign h =>
    exact hgap (.fold hne hw hsign h) (List.cons_ne_nil _ _) (stops_cons_iff.mpr rfl)

/-- The spaces at the front of what is written are those of the text, which goes on. -/
theorem PlainText.exists_spaces (h : PlainText indent w s) :
    ∃ k w' s', w = List.replicate k ' ' ++ w' ∧ s = List.replicate k ' ' ++ s' ∧
      PlainText indent w' s' ∧ Stops isSpace w' ∧
      (k ≠ 0 → w' ≠ [] ∧ Stops isBreak w' ∧ w'.head? ≠ some '#') := by
  refine exists_front_spaces (fun w s h ↦ ?_) h
  cases h with
  | nil => exact .inl stops_nil
  | char hsimple hspace hcolon h =>
    exact .inl (stops_cons_iff.mpr (isSpace_of_not_isGap (isGap_of_isSimple hsimple hspace)))
  | space hne hw hsign h => exact .inr ⟨_, _, rfl, rfl, h, hne, hw, hsign⟩
  | fold hne hw hsign h => exact .inl (stops_cons_iff.mpr rfl)

theorem takeBreaks_spaces (k n : ℕ) (ht : Stops isGap t) (m : Mark) :
    takeBreaks (n + 1) ⟨List.replicate k ' ' ++ t, m⟩ =
      (some [], ⟨t, m.behind (List.replicate k ' ')⟩) := by
  have hspace : Stops (· == ' ') t := fun x hx ↦ beq_false_of_ne (ne_space_of_not_isGap (ht x hx))
  rw [takeBreaks, Cursor.skipWhile_spaces k rfl hspace]
  dsimp only
  rw [Cursor.takeBreak_of_stops ht.isBreak]

/-- A line break and the spaces behind it stand for a space. -/
theorem takeGap_line (k : ℕ) (ht : Stops isGap t)
    (hline : k ≠ 0 ∨ Stops (fun x ↦ x == '-' || x == '.') t) (m : Mark) :
    takeGap ⟨'\n' :: (List.replicate k ' ' ++ t), m⟩ =
      ⟨[' '], ⟨t, (Cursor.advance m '\n').behind (List.replicate k ' ')⟩, true⟩ := by
  have hseparator : Stops (fun x ↦ x == '-' || x == '.') (List.replicate k ' ' ++ t) := by
    cases k with
    | zero => exact hline.resolve_left fun h ↦ h rfl
    | succ k => exact stops_cons_iff.mpr rfl
  unfold takeGap
  rw [Cursor.span_of_stops (stops_cons_iff.mpr rfl)]
  dsimp only
  rw [Cursor.takeBreak_newline]
  dsimp only
  rw [Cursor.seesSeparator_of_stops hseparator, if_neg Bool.false_ne_true,
    takeBreaks_spaces k _ ht]
  rfl

theorem takeGap_spaces (k : ℕ) (ht : Stops isGap t) (m : Mark) :
    takeGap ⟨List.replicate k ' ' ++ t, m⟩ =
      ⟨List.replicate k ' ', ⟨t, m.behind (List.replicate k ' ')⟩, false⟩ := by
  have hspace : Stops (· == ' ') t := fun x hx ↦ beq_false_of_ne (ne_space_of_not_isGap (ht x hx))
  unfold takeGap
  rw [Cursor.span_spaces k rfl hspace]
  dsimp only
  rw [Cursor.takeBreak_of_stops ht.isBreak]

/-- Behind a gap the text goes on, on a line that is indented as much. -/
theorem PlainText.exists_gap (h : PlainText indent w s) (hindent : indent ≠ 0) (hne : w ≠ [])
    (hgap : Stops (fun x ↦ !isGap x) w) (t : List Char) (m : Mark) :
    ∃ g w' s' m' broken, s = g ++ s' ∧ g ≠ [] ∧ PlainText indent w' s' ∧ w' ≠ [] ∧
      Stops isGap w' ∧ w'.head? ≠ some '#' ∧ w'.length < w.length ∧
      takeGap ⟨w ++ t, m⟩ = ⟨g, ⟨w' ++ t, m'⟩, broken⟩ ∧
      ∀ margin, margin ≤ indent → margin ≤ m.column → margin ≤ m'.column := by
  obtain ⟨k, w', s', rfl, rfl, hrest, hspace, hafter⟩ := h.exists_spaces
  cases k with
  | succ k =>
    obtain ⟨hne, hbreak, hsign⟩ := hafter (Nat.succ_ne_zero k)
    have hstops : Stops isGap w' := fun x hx ↦
      Bool.or_eq_false_iff.mpr ⟨hspace x hx, hbreak x hx⟩
    let spaces := List.replicate (k + 1) ' '
    refine ⟨spaces, w', s', m.behind spaces, false, rfl, List.cons_ne_nil _ _, hrest, hne,
      hstops, hsign, ?_, ?_, fun margin _ h ↦ ?_⟩
    · rw [List.length_append, List.length_replicate]
      omega
    · rw [List.append_assoc]
      exact takeGap_spaces _ (hstops.append_right hne t) m
    · rw [m.column_behind_simple (simple_spaces _)]
      omega
  | zero =>
    -- of what starts with no space, only a fold starts with a gap
    cases hrest with
    | nil => exact absurd rfl hne
    | char hsimple hx => exact absurd hgap (not_stops_of_isSimple hsimple hx _)
    | space => exact nomatch stops_cons_iff.mp hspace
    | @fold w s hword hw hsign hrest =>
      let spaces := List.replicate indent ' '
      refine ⟨[' '], w, s, (Cursor.advance m '\n').behind spaces, true, rfl,
        List.cons_ne_nil _ _, hrest, hword, hw, hsign, ?_, ?_, fun margin h _ ↦ ?_⟩
      · simp only [List.replicate_zero, List.nil_append, List.length_cons, List.length_append]
        omega
      · have hread := takeGap_line indent (hw.append_right hword t) (.inl hindent) m
        rwa [← List.append_assoc] at hread
      · rw [Mark.column_behind_simple _ (simple_spaces _), List.length_replicate]
        omega

/-- Whether no word of the same scalar follows a gap. -/
def Gap.isLast (margin : ℕ) (g : Gap) : Bool :=
  g.text.isEmpty || g.cursor.peek == some '#' || g.cursor.mark.column < margin

theorem Gap.isLast_eq_false {g : List Char} {m : Mark} {margin : ℕ} (hg : g ≠ []) (hne : w ≠ [])
    (hsign : w.head? ≠ some '#') (hcolumn : margin ≤ m.column) (t : List Char) (broken : Bool) :
    Gap.isLast margin ⟨g, ⟨w ++ t, m⟩, broken⟩ = false := by
  obtain ⟨y, g, rfl⟩ := List.exists_cons_of_ne_nil hg
  obtain ⟨x, w, rfl⟩ := List.exists_cons_of_ne_nil hne
  have hx : x ≠ '#' := fun h ↦ hsign (congrArg some h)
  simp [Gap.isLast, Cursor.peek, hx, hcolumn]

theorem extend_word {margin n : ℕ} {run : PlainRun} {a gap : List Char} {m : Mark}
    (hrun : run.cursor = ⟨a ++ t, m⟩) (ha : a ≠ []) (hword : plainWord false (a ++ t) = a) :
    PlainRun.extend false margin (n + 1) run gap =
      let next := takeGap ⟨t, m.behind a⟩
      let run : PlainRun := ⟨run.text ++ gap ++ a, m.behind a, next.cursor, next.broken⟩
      if next.isLast margin then run else PlainRun.extend false margin n run next.text := by
  have hempty : a.isEmpty = false := by
    obtain ⟨x, a, rfl⟩ := List.exists_cons_of_ne_nil ha
    rfl
  rw [PlainRun.extend, hrun]
  dsimp only
  rw [hword, hempty, if_neg Bool.false_ne_true, Cursor.skip_append]
  rfl

/-- What is written plain is read up to a gap that is the last one. -/
theorem PlainText.exists_extend {margin n : ℕ} {m : Mark} (h : PlainText indent w s)
    (hindent : indent ≠ 0) (hmargin : margin ≤ indent) (ht : plainWord false t = [])
    (hlast : ∀ m, (takeGap ⟨t, m⟩).isLast margin = true) (hne : w ≠ []) (hw : Stops isGap w)
    (hcolumn : margin ≤ m.column) (hn : w.length < n) (run : PlainRun)
    (hrun : run.cursor = ⟨w ++ t, m⟩) (gap : List Char) :
    ∃ m', PlainRun.extend false margin n run gap =
      ⟨run.text ++ gap ++ s, m', (takeGap ⟨t, m'⟩).cursor, (takeGap ⟨t, m'⟩).broken⟩ := by
  induction hlength : w.length using Nat.strong_induction_on generalizing w s m n run gap with
  | _ l ih =>
    subst hlength
    obtain ⟨n, rfl⟩ := Nat.exists_eq_succ_of_ne_zero (Nat.ne_of_gt (Nat.zero_lt_of_lt hn))
    obtain ⟨a, w', s', rfl, rfl, hrest, hgap, hsimple, hword⟩ := h.exists_word ht
    have ha : a ≠ [] := by
      rintro rfl
      obtain ⟨x, v, rfl⟩ := List.exists_cons_of_ne_nil hne
      have hx := stops_cons_iff.mp hgap
      rw [stops_cons_iff.mp hw] at hx
      exact nomatch hx
    rw [List.append_assoc] at hrun hword
    rw [extend_word hrun ha hword]
    dsimp only
    cases w' with
    | nil =>
      cases hrest
      refine ⟨m.behind a, ?_⟩
      rw [List.nil_append, hlast, if_pos rfl, List.append_nil]
    | cons x v =>
      obtain ⟨g, w'', s'', m', broken, rfl, hg, hrest', hne', hw', hsign, hlt, htake, hmark⟩ :=
        hrest.exists_gap hindent (List.cons_ne_nil _ _) hgap t (m.behind a)
      have hcolumn' : margin ≤ m'.column := by
        refine hmark margin hmargin ?_
        rw [m.column_behind_simple hsimple]
        omega
      obtain ⟨m'', hread⟩ := ih w''.length (by rw [List.length_append]; omega) hrest' hne' hw'
        hcolumn' (show w''.length < n by rw [List.length_append] at hn; omega)
        ⟨run.text ++ gap ++ a, m.behind a, ⟨w'' ++ t, m'⟩, broken⟩ rfl g rfl
      refine ⟨m'', ?_⟩
      rw [htake, Gap.isLast_eq_false hg hne' hsign hcolumn', if_neg Bool.false_ne_true]
      dsimp only
      rw [hread]
      simp only [List.append_assoc]

/-- What is written plain at the end of a line is read up to the next line, if that is not
indented as much. -/
theorem PlainText.exists_cutPlain {margin k : ℕ} {m : Mark} {u : List Char}
    (h : PlainText indent w s) (hmargin : margin ≤ indent) (hne : w ≠ []) (hw : Stops isGap w)
    (hcolumn : margin ≤ m.column) (hk : k < margin) (hu : Stops isGap u)
    (hline : k ≠ 0 ∨ Stops (fun x ↦ x == '-' || x == '.') u) :
    ∃ m' m'', m''.column = k ∧
      cutPlain false margin ⟨w ++ '\n' :: (List.replicate k ' ' ++ u), m⟩ =
        ⟨s, m', ⟨u, m''⟩, true⟩ := by
  have hline := fun m ↦ takeGap_line k hu hline m
  have hplace : ∀ m : Mark,
      ((Cursor.advance m '\n').behind (List.replicate k ' ')).column = k := fun m ↦ by
    rw [Mark.column_behind_simple _ (simple_spaces k), List.length_replicate]
    exact Nat.zero_add k
  have hlast : ∀ m, (takeGap ⟨'\n' :: (List.replicate k ' ' ++ u), m⟩).isLast margin = true := by
    intro m
    rw [hline]
    simp [Gap.isLast, hplace, hk]
  obtain ⟨m', hread⟩ :=
    h.exists_extend (by omega) hmargin (plainWord_of_gap (stops_cons_iff.mpr rfl))
    hlast hne hw hcolumn
    (n := (w ++ '\n' :: (List.replicate k ' ' ++ u)).length + 1)
    (by rw [List.length_append]; omega)
    ⟨[], m, ⟨w ++ '\n' :: (List.replicate k ' ' ++ u), m⟩, false⟩ rfl []
  refine ⟨m', _, hplace m', ?_⟩
  unfold cutPlain
  rw [hread, hline]
  rfl

/-- A key ends at its colon. -/
theorem cutPlain_key {key : List Char} (hne : key ≠ [])
    (hkey : ∀ c ∈ key, isSimple c = true ∧ c ≠ ' ' ∧ c ≠ ':')
    (ht : Stops (fun x ↦ !isGap x) t) (margin : ℕ) (m : Mark) :
    cutPlain false margin ⟨key ++ ':' :: t, m⟩ =
      ⟨key, m.behind key, ⟨':' :: t, m.behind key⟩, false⟩ := by
  have hcolon : plainWord false (':' :: t) = [] := by
    have hends : endsOr (fun y ↦ isGap y || (false && isFlowMark y)) t.head? = true :=
      endsOr_of_stops (by simpa using ht)
    rw [plainWord, hends]
    rfl
  have hword : ∀ key : List Char, (∀ c ∈ key, isSimple c = true ∧ c ≠ ' ' ∧ c ≠ ':') →
      plainWord false (key ++ ':' :: t) = key := by
    intro key hkey
    induction key with
    | nil => exact hcolon
    | cons c key ih =>
      obtain ⟨⟨hc, hspace, hne⟩, hkey⟩ := List.forall_mem_cons.mp hkey
      rw [List.cons_append, plainWord_char (isGap_of_isSimple hc hspace) fun h ↦ absurd h hne,
        ih hkey]
  have hgap := takeGap_spaces 0 (stops_cons_iff.mpr rfl : Stops isGap (':' :: t)) (m.behind key)
  unfold cutPlain
  rw [extend_word rfl hne (hword key hkey)]
  rw [List.replicate_zero, List.nil_append] at hgap
  rw [hgap]
  rfl

/-! ## Writing -/

section Writing

variable {l : Layout}

theorem foldedText_visible (column : ℕ) (before : Option Char) {c : Char}
    (hsimple : isSimple c = true) (hspace : c ≠ ' ') (s : List Char) :
    foldedText l false column before (c :: s) =
      c :: foldedText l false (column + 1) (some c) s :=
  foldedText_char l false column before s hspace (ne_newline_of_isSimple hsimple) (.inl rfl)

/-- A space in front of a text that goes on plain. -/
theorem plainText_space {d : Char} (hd : isSimple d = true) (hsign : d ≠ '#')
    (h : ∀ column before, PlainText l.indent (foldedText l false column before (d :: s)) (d :: s))
    (column : ℕ) (before : Option Char) :
    PlainText l.indent (foldedText l false column before (' ' :: d :: s)) (' ' :: d :: s) := by
  have hhead : ∀ w : List Char, (d :: w).head? ≠ some '#' := fun w hw ↦ hsign (Option.some.inj hw)
  obtain hwritten | ⟨-, -, hdspace, hwritten⟩ := foldedText_space l false column before (d :: s)
  · have hrest := h (column + 1) (some ' ')
    rw [hwritten]
    by_cases hdspace : d = ' '
    · subst hdspace
      rw [foldedText_second_space] at hrest ⊢
      exact .space (List.cons_ne_nil _ _) (stops_cons_iff.mpr rfl) (hhead _) hrest
    · rw [foldedText_visible _ _ hd hdspace] at hrest ⊢
      exact .space (List.cons_ne_nil _ _) (stops_cons_iff.mpr (isBreak_of_isSimple hd)) (hhead _)
        hrest
  · have hdspace : d ≠ ' ' := fun hd ↦ hdspace (congrArg some hd)
    have hrest := h l.indent (some ' ')
    rw [hwritten]
    rw [foldedText_visible _ _ hd hdspace] at hrest ⊢
    exact .fold (List.cons_ne_nil _ _) (stops_cons_iff.mpr (isGap_of_isSimple hd hdspace))
      (hhead _) hrest

/-- What is written for a text that can go on plain stands for it. -/
theorem plainText_foldedText {b : Char} (hsimple : Simple s) (hlast : s.getLast? ≠ some ' ')
    (hcontinues : continuesPlain b s = true) (column : ℕ) (before : Option Char) :
    PlainText l.indent (foldedText l false column before s) s := by
  induction s generalizing column before b with
  | nil => exact .nil
  | cons c s ih =>
    obtain ⟨hc, hs⟩ := simple_cons_iff.mp hsimple
    simp only [continuesPlain, Bool.and_eq_true, Bool.not_eq_true'] at hcontinues
    obtain ⟨⟨hcolon, -⟩, hcontinues⟩ := hcontinues
    have hlast' : s.getLast? ≠ some ' ' := by
      cases s with
      | nil => exact nofun
      | cons d s => rwa [List.getLast?_cons_cons] at hlast
    have hrest := ih hs hlast' hcontinues
    by_cases hspace : c = ' '
    · subst hspace
      cases s with
      | nil => exact absurd rfl hlast
      | cons d s =>
        have hsign : d ≠ '#' := by
          rintro rfl
          simp only [continuesPlain, Bool.and_eq_true, Bool.not_eq_true'] at hcontinues
          exact absurd hcontinues.1.2 (by decide)
        exact plainText_space (simple_cons_iff.mp hs).1 hsign hrest column before
    · rw [foldedText_visible _ _ hc hspace]
      refine .char hc hspace (fun hx ↦ ?_) (hrest _ _)
      subst hx
      cases s with
      | nil => exact absurd hcolon (by decide)
      | cons d s =>
        have hgap : isGap d = false := by simpa [endsOr] using hcolon
        rw [foldedText_visible _ _ (simple_cons_iff.mp hs).1 (ne_space_of_not_isGap hgap)]
        exact ⟨List.cons_ne_nil _ _, stops_cons_iff.mpr hgap⟩

end Writing

end WaveNotebook.Document
