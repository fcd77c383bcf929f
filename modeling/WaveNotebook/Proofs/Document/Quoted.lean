import Mathlib
import WaveNotebook.Proofs.Document.Plain

/-!
# Text between quotes

What is written between quotes stands for a text: characters for themselves, a single quote written
twice and an escape for one character, a line break with others for the breaks without the first
one, or for a space if it is alone, and a line break behind a backslash for nothing. The reader
finds this text word by word, and both writers write it.
-/

namespace WaveNotebook.Document

/-! ## Escapes -/

/-- Hexadecimal digits as escapes have them. -/
def upperHexDigits (width n : ℕ) : List Char :=
  (Text.hexDigits width n).map Char.toUpper

theorem upper_hexDigit {d : ℕ} (hd : d < 16) :
    isHex (Text.hexDigit d).toUpper = true ∧ isSimple (Text.hexDigit d).toUpper = true ∧
      digitOf (Text.hexDigit d).toUpper = d := by
  have key : ∀ d : Fin 16, isHex (Text.hexDigit d).toUpper = true ∧
      isSimple (Text.hexDigit d).toUpper = true ∧ digitOf (Text.hexDigit d).toUpper = d := by
    decide
  exact key ⟨d, hd⟩

theorem upperHexDigits_succ (width n : ℕ) :
    upperHexDigits (width + 1) n =
      upperHexDigits width (n / 16) ++ [(Text.hexDigit (n % 16)).toUpper] :=
  List.map_append

theorem length_upperHexDigits (width n : ℕ) : (upperHexDigits width n).length = width := by
  induction width generalizing n with
  | zero => rfl
  | succ width ih => rw [upperHexDigits_succ, List.length_append, ih, List.length_singleton]

theorem forall_mem_upperHexDigits (width n : ℕ) :
    ∀ c ∈ upperHexDigits width n, isHex c = true ∧ isSimple c = true := by
  induction width generalizing n with
  | zero => exact fun _ h ↦ nomatch h
  | succ width ih =>
    have hdigit := upper_hexDigit (Nat.mod_lt n (Nat.succ_pos 15))
    rw [upperHexDigits_succ]
    exact List.forall_mem_append.mpr ⟨ih _, List.forall_mem_singleton.mpr ⟨hdigit.1, hdigit.2.1⟩⟩

theorem foldl_upperHexDigits {width n : ℕ} (hn : n < 16 ^ width) :
    (upperHexDigits width n).foldl (fun acc c ↦ 16 * acc + digitOf c) 0 = n := by
  induction width generalizing n with
  | zero => exact (Nat.lt_one_iff.mp hn).symm
  | succ width ih =>
    have hinit : n / 16 < 16 ^ width := by
      rw [pow_succ] at hn
      exact Nat.div_lt_of_lt_mul (by omega)
    rw [upperHexDigits_succ, List.foldl_append, ih hinit, List.foldl_cons, List.foldl_nil,
      (upper_hexDigit (Nat.mod_lt n (Nat.succ_pos 15))).2.2, Nat.div_add_mod]

/-- What stands behind a backslash for a character. -/
structure Escapes (e : List Char) (c : Char) : Prop where
  ne_nil : e ≠ []
  simple : Simple e
  reads : ∀ start t m, ∃ m', cutEscape start ⟨e ++ t, m⟩ = .ok ([c], ⟨t, m'⟩)

theorem escapes_letter {letter c : Char} (hsimple : isSimple letter = true)
    (h : ofEscapeLetter? letter = some c) : Escapes [letter] c where
  ne_nil := List.cons_ne_nil _ _
  simple := simple_cons_iff.mpr ⟨hsimple, simple_nil⟩
  reads start t m := by
    refine ⟨Cursor.advance m letter, ?_⟩
    unfold cutEscape Cursor.peek Cursor.next
    simp only [List.cons_append, List.nil_append, List.head?_cons, Option.bind_some, h]

theorem escapes_hexDigits {letter c : Char} {width : ℕ} (hsimple : isSimple letter = true)
    (hletter : ofEscapeLetter? letter = none) (hwidth : escapeWidth? letter = some width)
    (hc : c.toNat < 16 ^ width) : Escapes (letter :: upperHexDigits width c.toNat) c where
  ne_nil := List.cons_ne_nil _ _
  simple := simple_cons_iff.mpr ⟨hsimple, fun x hx ↦ (forall_mem_upperHexDigits _ _ x hx).2⟩
  reads start t m := by
    let ds := upperHexDigits width c.toNat
    have hlength : ds.length = width := length_upperHexDigits _ _
    have hdigits : ((ds ++ t).take width).takeWhile isHex = ds := by
      rw [List.take_left' hlength]
      exact List.takeWhile_eq_self_iff.mpr fun x hx ↦ (forall_mem_upperHexDigits _ _ x hx).1
    refine ⟨(Cursor.advance m letter).behind ds, ?_⟩
    unfold cutEscape Cursor.peek Cursor.next
    simp only [List.cons_append, List.head?_cons, Option.bind_some, hletter, hwidth]
    change (if (((ds ++ t).take width).takeWhile isHex).length < width then _ else _) = _
    rw [hdigits, if_neg (Nat.not_lt.mpr hlength.ge), foldl_upperHexDigits hc, Char.ofNat_toNat]
    have hskip := Cursor.skip_append ds t (Cursor.advance m letter)
    rw [hlength] at hskip
    rw [hskip]

theorem ofEscapeLetter?_of_mem :
    ∀ p ∈ escapeLetters, ofEscapeLetter? p.2 = some (Char.ofNat p.1) ∧ isSimple p.2 = true := by
  decide

/-- The escape of a character is read as this character. -/
theorem exists_escapes_of_escape? {c : Char} {e : List Char} (h : escape? c = some e) :
    ∃ e', e = '\\' :: e' ∧ Escapes e' c := by
  unfold escape? at h
  dsimp only at h
  split at h
  · rename_i letter hlookup
    obtain ⟨_, _, hlist, -⟩ := List.lookup_eq_some_iff.mp hlookup
    have hmem : (c.toNat, letter) ∈ escapeLetters := by
      rw [hlist]
      exact List.mem_append_right _ List.mem_cons_self
    obtain ⟨hletter, hsimple⟩ := ofEscapeLetter?_of_mem _ hmem
    rw [Char.ofNat_toNat] at hletter
    obtain rfl := Option.some.inj h
    exact ⟨[letter], rfl, escapes_letter hsimple hletter⟩
  · split at h
    · exact nomatch h
    · split at h
      · rename_i hn
        obtain rfl := Option.some.inj h
        exact ⟨_, rfl, escapes_hexDigits (by decide) (by decide) (by decide) hn⟩
      · split at h
        · rename_i hn
          obtain rfl := Option.some.inj h
          exact ⟨_, rfl, escapes_hexDigits (by decide) (by decide) (by decide) hn⟩
        · obtain rfl := Option.some.inj h
          have hn : c.toNat < 16 ^ 8 := by
            have hvalid : c.toNat < 0xD800 ∨ 0xDFFF < c.toNat ∧ c.toNat < 0x110000 := c.valid
            omega
          exact ⟨_, rfl, escapes_hexDigits (by decide) (by decide) (by decide) hn⟩

/-- A character without an escape is a simple one, and neither a quote nor a backslash. -/
theorem simple_of_escape? {c : Char} (h : escape? c = none) :
    isSimple c = true ∧ c ≠ '"' ∧ c ≠ '\\' := by
  refine ⟨?_, ?_, ?_⟩
  · unfold escape? at h
    dsimp only at h
    split at h
    · exact nomatch h
    · split at h
      · assumption
      · split at h
        · exact nomatch h
        · split at h <;> exact nomatch h
  · rintro rfl
    revert h
    decide
  · rintro rfl
    revert h
    decide

/-! ## What stands between quotes -/

/-- What is written between quotes, and the text that it stands for. -/
inductive QuotedText (q : Char) : List Char → List Char → Prop
  | nil : QuotedText q [] []
  | char {x w s} (hsimple : isSimple x = true) (hspace : x ≠ ' ') (hquote : x ≠ q)
    (hescape : q = '"' → x ≠ '\\') (h : QuotedText q w s) : QuotedText q (x :: w) (x :: s)
  | space {w s} (hw : Stops isBreak w) (h : QuotedText q w s) : QuotedText q (' ' :: w) (' ' :: s)
  | twice {w s} (hq : q = '\'') (h : QuotedText q w s) :
    QuotedText q ('\'' :: '\'' :: w) ('\'' :: s)
  | breaks {w s n} (k : ℕ) (hn : n ≠ 0) (hw : Stops isGap w) (h : QuotedText q w s) :
    QuotedText q ('\n' :: (List.replicate k '\n' ++ (List.replicate n ' ' ++ w)))
      (foldedBreaks '\n' (List.replicate k '\n') ++ s)
  | escape {e x w s} (hq : q = '"') (he : Escapes e x) (h : QuotedText q w s) :
    QuotedText q ('\\' :: (e ++ w)) (x :: s)
  | join {w s n} (hq : q = '"') (hn : n ≠ 0) (hw : Stops isGap w) (h : QuotedText q w s) :
    QuotedText q ('\\' :: '\n' :: (List.replicate n ' ' ++ w)) s

/-- The two quotes. -/
def IsQuote (q : Char) : Prop :=
  q = '\'' ∨ q = '"'

theorem IsQuote.isGap_eq_false {q : Char} (hq : IsQuote q) : isGap q = false := by
  obtain rfl | rfl := hq <;> decide

theorem QuotedText.isDocument {q : Char} {w s : List Char} (h : QuotedText q w s) :
    IsDocument w := by
  induction h with
  | nil => exact isDocument_nil
  | char hsimple _ _ _ _ ih => exact isDocument_cons_iff.mpr ⟨.inl hsimple, ih⟩
  | space _ _ ih => exact isDocument_cons_iff.mpr ⟨.inl rfl, ih⟩
  | twice _ _ ih =>
    exact isDocument_cons_iff.mpr ⟨.inl rfl, isDocument_cons_iff.mpr ⟨.inl rfl, ih⟩⟩
  | breaks _ _ _ _ ih =>
    have hbreaks : ∀ n, IsDocument (List.replicate n '\n') :=
      fun n c hc ↦ .inr (List.eq_of_mem_replicate hc)
    exact isDocument_cons_iff.mpr ⟨.inr rfl, isDocument_append_iff.mpr ⟨hbreaks _,
      isDocument_append_iff.mpr ⟨(simple_spaces _).isDocument, ih⟩⟩⟩
  | escape _ he _ ih =>
    exact isDocument_cons_iff.mpr
      ⟨.inl rfl, isDocument_append_iff.mpr ⟨he.simple.isDocument, ih⟩⟩
  | join _ _ _ _ ih =>
    exact isDocument_cons_iff.mpr ⟨.inl rfl, isDocument_cons_iff.mpr ⟨.inr rfl,
      isDocument_append_iff.mpr ⟨(simple_spaces _).isDocument, ih⟩⟩⟩

section Reading

variable {q : Char} {start : Mark} {t : List Char}

theorem quotedBreaks_eq {j : ℕ} (hj : j ≠ 0) (ht : Stops isGap t) (k : ℕ) (start m : Mark) :
    ∃ m', ∀ n, k < n →
      quotedBreaks start n ⟨List.replicate k '\n' ++ (List.replicate j ' ' ++ t), m⟩ =
        .ok (List.replicate k '\n', ⟨t, m'⟩) := by
  induction k generalizing m with
  | zero =>
    refine ⟨m.behind (List.replicate j ' '), fun n hn ↦ ?_⟩
    obtain ⟨n, rfl⟩ := Nat.exists_eq_succ_of_ne_zero (Nat.ne_of_gt hn)
    have hseparator : Stops (fun x ↦ x == '-' || x == '.') (List.replicate j ' ' ++ t) := by
      obtain ⟨j, rfl⟩ := Nat.exists_eq_succ_of_ne_zero hj
      exact stops_cons_iff.mpr rfl
    rw [List.replicate_zero, List.nil_append, quotedBreaks,
      Cursor.seesSeparator_of_stops hseparator, Cursor.skipWhile_spaces j rfl ht.isSpace]
    dsimp only
    rw [Cursor.takeBreak_of_stops ht.isBreak]
    rfl
  | succ k ih =>
    obtain ⟨m', h⟩ := ih (Cursor.advance m '\n')
    refine ⟨m', fun n hn ↦ ?_⟩
    obtain ⟨n, rfl⟩ := Nat.exists_eq_succ_of_ne_zero (Nat.ne_of_gt (Nat.zero_lt_of_lt hn))
    rw [List.replicate_succ, List.cons_append, quotedBreaks,
      Cursor.seesSeparator_of_stops (stops_cons_iff.mpr rfl),
      Cursor.skipWhile_of_stops (stops_cons_iff.mpr rfl)]
    dsimp only
    rw [Cursor.takeBreak_newline]
    dsimp only
    rw [h n (Nat.lt_of_succ_lt_succ hn)]
    rfl

/-! ### Words -/

theorem cutQuotedWord_char {x : Char} {a : List Char} {m : Mark} {d : Cursor} {n : ℕ}
    (hgap : isGap x = false) (hquote : x ≠ q) (hescape : q = '"' → x ≠ '\\')
    (h : cutQuotedWord q start n ⟨t, Cursor.advance m x⟩ = .ok (a, d)) :
    cutQuotedWord q start (n + 1) ⟨x :: t, m⟩ = .ok (x :: a, d) := by
  have hbackslash : ¬(q = '"' ∧ x = '\\') := fun hx ↦ hescape hx.1 hx.2
  rw [cutQuotedWord]
  simp only [Cursor.peek, List.head?_cons, hgap, Bool.false_eq_true, if_false, if_neg hbackslash,
    if_neg hquote, Cursor.next, h]
  rfl

theorem cutQuotedWord_twice {a : List Char} {m : Mark} {d : Cursor} {n : ℕ}
    (h : cutQuotedWord '\'' start n ⟨t, (m.behind ['\'', '\''])⟩ = .ok (a, d)) :
    cutQuotedWord '\'' start (n + 1) ⟨'\'' :: '\'' :: t, m⟩ = .ok ('\'' :: a, d) := by
  have hskip : Cursor.skip ⟨'\'' :: '\'' :: t, m⟩ 2 = ⟨t, m.behind ['\'', '\'']⟩ := rfl
  have hgap : isGap '\'' = false := by decide
  rw [cutQuotedWord]
  simp only [Cursor.peek, List.head?_cons, hgap, Bool.false_eq_true, if_false, if_true, hskip, h]
  rfl

theorem cutQuotedWord_escape {e a : List Char} {x : Char} {m m' : Mark} {d : Cursor} {n : ℕ}
    (he : Escapes e x)
    (hread : cutEscape start ⟨e ++ t, Cursor.advance m '\\'⟩ = .ok ([x], ⟨t, m'⟩))
    (h : cutQuotedWord '"' start n ⟨t, m'⟩ = .ok (a, d)) :
    cutQuotedWord '"' start (n + 1) ⟨'\\' :: (e ++ t), m⟩ = .ok (x :: a, d) := by
  have hbreak : Stops isBreak (e ++ t) := by
    obtain ⟨y, e, rfl⟩ := List.exists_cons_of_ne_nil he.ne_nil
    exact stops_cons_iff.mpr (isBreak_of_isSimple (simple_cons_iff.mp he.simple).1)
  have hgap : isGap '\\' = false := by decide
  rw [cutQuotedWord]
  simp only [Cursor.peek, List.head?_cons, hgap, Bool.false_eq_true, if_false, and_self, if_true,
    Cursor.next, Cursor.takeBreak_of_stops hbreak, hread, bind, Except.bind, h]
  rfl

theorem cutQuotedWord_join {a : List Char} {j : ℕ} {m m' : Mark} {d : Cursor} {n : ℕ}
    (hbreaks : ∀ n, 0 < n → quotedBreaks start n ⟨List.replicate j ' ' ++ t,
      m.behind ['\\', '\n']⟩ = .ok ([], ⟨t, m'⟩))
    (h : cutQuotedWord '"' start n ⟨t, m'⟩ = .ok (a, d)) :
    cutQuotedWord '"' start (n + 1) ⟨'\\' :: '\n' :: (List.replicate j ' ' ++ t), m⟩ =
      .ok (a, d) := by
  have hgap : isGap '\\' = false := by decide
  have hread : quotedBreaks start ((List.replicate j ' ' ++ t).length + 1)
      ⟨List.replicate j ' ' ++ t, Cursor.advance (Cursor.advance m '\\') '\n'⟩ =
        .ok ([], ⟨t, m'⟩) :=
    hbreaks _ (Nat.succ_pos _)
  rw [cutQuotedWord]
  simp only [Cursor.peek, List.head?_cons, hgap, Bool.false_eq_true, if_false, and_self, if_true,
    Cursor.next, Cursor.takeBreak_newline, bind, Except.bind, hread, h]
  rfl

theorem cutQuotedWord_gap (ht : Stops (fun x ↦ !isGap x) t) (hne : t ≠ []) (m : Mark) (n : ℕ) :
    cutQuotedWord q start (n + 1) ⟨t, m⟩ = .ok ([], ⟨t, m⟩) := by
  obtain ⟨x, t, rfl⟩ := List.exists_cons_of_ne_nil hne
  have hgap : isGap x = true := by simpa using stops_cons_iff.mp ht
  rw [cutQuotedWord]
  simp only [Cursor.peek, List.head?_cons, hgap, if_true]

theorem cutQuotedWord_quote (hq : IsQuote q) (ht : Stops (· == '\'') t) (m : Mark) (n : ℕ) :
    cutQuotedWord q start (n + 1) ⟨q :: t, m⟩ = .ok ([], ⟨q :: t, m⟩) := by
  have hbackslash : ¬(q = '"' ∧ q = '\\') := by
    rintro ⟨rfl, h⟩
    exact absurd h (by decide)
  have htwice : ¬(q = '\'' ∧ t.head? = some '\'') := fun h ↦
    absurd (ht _ h.2) (by decide)
  have hnext : Cursor.peekAt ⟨q :: t, m⟩ 1 = t.head? := Cursor.peekAt_one rfl
  rw [cutQuotedWord]
  simp only [Cursor.peek, List.head?_cons, hq.isGap_eq_false, Bool.false_eq_true, if_false,
    if_neg hbackslash, hnext, if_neg htwice, if_true]

/-- Reading a word leaves a rest that is empty or starts with a gap. -/
def HasWord (q : Char) (t : List Char) (start m : Mark) (w s : List Char) : Prop :=
  ∃ a w' s' m', s = a ++ s' ∧ QuotedText q w' s' ∧ w'.length ≤ w.length ∧
    Stops (fun x ↦ !isGap x) w' ∧ ∀ n, (w ++ q :: t).length < n →
      cutQuotedWord q start n ⟨w ++ q :: t, m⟩ = .ok (a, ⟨w' ++ q :: t, m'⟩)

/-- What stands for a character or for nothing in front of a word belongs to it. -/
theorem HasWord.cons {v w a s : List Char} {m m' : Mark} (h : HasWord q t start m' w s)
    (hv : v ≠ []) (hread : ∀ n b d, cutQuotedWord q start n ⟨w ++ q :: t, m'⟩ = .ok (b, d) →
      cutQuotedWord q start (n + 1) ⟨v ++ (w ++ q :: t), m⟩ = .ok (a ++ b, d)) :
    HasWord q t start m (v ++ w) (a ++ s) := by
  obtain ⟨b, w', s', m'', rfl, hrest, hlength, hstops, hword⟩ := h
  have hv := List.length_pos_iff.mpr hv
  refine ⟨a ++ b, w', s', m'', (List.append_assoc a b s').symm, hrest, ?_, hstops, fun n hn ↦ ?_⟩
  · rw [List.length_append]
    omega
  · rw [List.append_assoc, List.length_append] at hn
    obtain ⟨n, rfl⟩ := Nat.exists_eq_succ_of_ne_zero (show n ≠ 0 by omega)
    rw [List.append_assoc]
    exact hread n _ _ (hword n (by omega))

theorem hasWord_gap {w s : List Char} (hgap : Stops (fun x ↦ !isGap x) w) (hne : w ≠ [])
    (h : QuotedText q w s) (m : Mark) : HasWord q t start m w s := by
  refine ⟨[], w, s, m, rfl, h, le_rfl, hgap, fun n hn ↦ ?_⟩
  obtain ⟨n, rfl⟩ := Nat.exists_eq_succ_of_ne_zero (Nat.ne_of_gt (Nat.zero_lt_of_lt hn))
  exact cutQuotedWord_gap (hgap.append_right hne _) (List.append_ne_nil_of_left_ne_nil hne _) m n

theorem QuotedText.hasWord {w s : List Char} (h : QuotedText q w s) (hq : IsQuote q)
    (ht : Stops (· == '\'') t) (start m : Mark) : HasWord q t start m w s := by
  induction h generalizing m with
  | nil =>
    refine ⟨[], [], [], m, rfl, .nil, le_rfl, stops_nil, fun n hn ↦ ?_⟩
    obtain ⟨n, rfl⟩ := Nat.exists_eq_succ_of_ne_zero (Nat.ne_of_gt (Nat.zero_lt_of_lt hn))
    exact cutQuotedWord_quote hq ht m n
  | @char x w s hsimple hspace hquote hescape h ih =>
    exact (ih (Cursor.advance m x)).cons (v := [x]) (a := [x]) (List.cons_ne_nil _ _)
      fun n b d ↦ cutQuotedWord_char (isGap_of_isSimple hsimple hspace) hquote hescape
  | space hw h =>
    exact hasWord_gap (stops_cons_iff.mpr rfl) (List.cons_ne_nil _ _) (.space hw h) m
  | twice hsingle h ih =>
    subst hsingle
    exact (ih (m.behind ['\'', '\''])).cons (v := ['\'', '\'']) (a := ['\'']) (List.cons_ne_nil _ _)
      fun n b d ↦ cutQuotedWord_twice
  | breaks k hn hw h =>
    exact hasWord_gap (stops_cons_iff.mpr rfl) (List.cons_ne_nil _ _) (.breaks k hn hw h) m
  | @escape e x w s hdouble he h ih =>
    subst hdouble
    obtain ⟨m', hread⟩ := he.reads start (w ++ '"' :: t) (Cursor.advance m '\\')
    exact (ih m').cons (v := '\\' :: e) (a := [x]) (List.cons_ne_nil _ _)
      fun n b d ↦ cutQuotedWord_escape he hread
  | @join w s j hdouble hj hw h ih =>
    subst hdouble
    have hstops : Stops isGap (w ++ '"' :: t) := hw.append (stops_cons_iff.mpr (by decide))
    obtain ⟨m', hbreaks⟩ := quotedBreaks_eq hj hstops 0 start (m.behind ['\\', '\n'])
    refine (ih m').cons (v := '\\' :: '\n' :: List.replicate j ' ') (a := [])
      (List.cons_ne_nil _ _) fun n b d hword ↦ ?_
    exact cutQuotedWord_join hbreaks hword

/-! ### Gaps -/

/-- The spaces at the front of what is written are those of the text. -/
theorem QuotedText.exists_spaces {w s : List Char} (h : QuotedText q w s) :
    ∃ k w' s', w = List.replicate k ' ' ++ w' ∧ s = List.replicate k ' ' ++ s' ∧
      QuotedText q w' s' ∧ Stops isSpace w' ∧ (k ≠ 0 → Stops isBreak w') := by
  refine exists_front_spaces (fun w s h ↦ ?_) h
  cases h with
  | nil => exact .inl stops_nil
  | char hsimple hspace hquote hescape h =>
    exact .inl (stops_cons_iff.mpr (isSpace_of_not_isGap (isGap_of_isSimple hsimple hspace)))
  | space hw h => exact .inr ⟨_, _, rfl, rfl, h, hw⟩
  | twice => exact .inl (stops_cons_iff.mpr (by decide))
  | breaks => exact .inl (stops_cons_iff.mpr (by decide))
  | escape => exact .inl (stops_cons_iff.mpr (by decide))
  | join => exact .inl (stops_cons_iff.mpr (by decide))

theorem cutQuotedGap_spaces {w : List Char} (k : ℕ) (hq : IsQuote q) (hspace : Stops isSpace w)
    (hbreak : Stops isBreak w) (m : Mark) :
    cutQuotedGap start ⟨List.replicate k ' ' ++ (w ++ q :: t), m⟩ =
      .ok (List.replicate k ' ', ⟨w ++ q :: t, m.behind (List.replicate k ' ')⟩) := by
  have hquote := hq.isGap_eq_false
  have hspan := Cursor.span_spaces (m := m) k rfl
    (hspace.append (stops_cons_iff.mpr (isSpace_of_not_isGap hquote)) : Stops _ (w ++ q :: t))
  have hnone := Cursor.takeBreak_of_stops (m := m.behind (List.replicate k ' '))
    (hbreak.append (stops_cons_iff.mpr (isBreak_of_not_isGap hquote)) : Stops _ (w ++ q :: t))
  have hempty : (w ++ q :: t).isEmpty = false := by
    cases w <;> rfl
  unfold cutQuotedGap
  rw [hspan]
  dsimp only
  rw [hnone]
  dsimp only
  rw [hempty, if_neg Bool.false_ne_true]

theorem exists_cutQuotedGap_breaks {w : List Char} {j : ℕ} (k : ℕ) (hq : IsQuote q) (hj : j ≠ 0)
    (hw : Stops isGap w) (start : Mark) (t : List Char) (m : Mark) : ∃ m', cutQuotedGap start
        ⟨'\n' :: (List.replicate k '\n' ++ (List.replicate j ' ' ++ (w ++ q :: t))), m⟩ =
      .ok (foldedBreaks '\n' (List.replicate k '\n'), ⟨w ++ q :: t, m'⟩) := by
  have hstops : Stops isGap (w ++ q :: t) := hw.append (stops_cons_iff.mpr hq.isGap_eq_false)
  obtain ⟨m', hbreaks⟩ :=
    quotedBreaks_eq hj hstops k start (Cursor.advance m '\n')
  refine ⟨m', ?_⟩
  unfold cutQuotedGap
  rw [Cursor.span_of_stops (stops_cons_iff.mpr rfl)]
  dsimp only
  rw [Cursor.takeBreak_newline]
  dsimp only
  rw [hbreaks _ (by simp only [List.length_append, List.length_replicate]; omega)]
  rfl

theorem QuotedText.exists_gap {w s : List Char} (h : QuotedText q w s) (hq : IsQuote q)
    (hne : w ≠ []) (hgap : Stops (fun x ↦ !isGap x) w) (start : Mark) (t : List Char) (m : Mark) :
    ∃ g w' s' m', s = g ++ s' ∧ QuotedText q w' s' ∧ w'.length < w.length ∧
      cutQuotedGap start ⟨w ++ q :: t, m⟩ = .ok (g, ⟨w' ++ q :: t, m'⟩) := by
  obtain ⟨k, w', s', rfl, rfl, hrest, hspace, hbreak⟩ := h.exists_spaces
  cases k with
  | succ k =>
    let spaces := List.replicate (k + 1) ' '
    refine ⟨spaces, w', s', m.behind spaces, rfl, hrest, ?_, ?_⟩
    · rw [List.length_append, List.length_replicate]
      omega
    · rw [List.append_assoc]
      exact cutQuotedGap_spaces _ hq hspace (hbreak (Nat.succ_ne_zero k)) m
  | zero =>
    -- of what starts with no space, only line breaks start with a gap
    cases hrest with
    | nil => exact absurd rfl hne
    | char hsimple hx => exact absurd hgap (not_stops_of_isSimple hsimple hx _)
    | space => exact nomatch stops_cons_iff.mp hspace
    | twice => exact nomatch stops_cons_iff.mp hgap
    | @breaks w s j k hj hw hrest =>
      obtain ⟨m', hread⟩ := exists_cutQuotedGap_breaks k hq hj hw start t m
      refine ⟨_, w, s, m', rfl, hrest, ?_, ?_⟩
      · simp only [List.replicate_zero, List.nil_append, List.length_cons, List.length_append]
        omega
      · simpa only [List.replicate_zero, List.nil_append, List.cons_append, List.append_assoc]
          using hread
    | escape => exact nomatch stops_cons_iff.mp hgap
    | join => exact nomatch stops_cons_iff.mp hgap

/-! ### Texts -/

theorem QuotedText.exists_cutQuotedText {w s : List Char} (h : QuotedText q w s) (hq : IsQuote q)
    (ht : Stops (· == '\'') t) (start m : Mark) {n : ℕ} (hn : (w ++ q :: t).length < n) :
    ∃ m', cutQuotedText q start n ⟨w ++ q :: t, m⟩ = .ok (s, ⟨t, m'⟩) := by
  induction hlength : w.length using Nat.strong_induction_on generalizing w s m n with
  | _ l ih =>
    subst hlength
    obtain ⟨n, rfl⟩ := Nat.exists_eq_succ_of_ne_zero (Nat.ne_of_gt (Nat.zero_lt_of_lt hn))
    obtain ⟨a, w', s', m', rfl, hrest, hle, hgap, hword⟩ := h.hasWord hq ht start m
    have hword := hword ((w ++ q :: t).length + 1) (Nat.lt_succ_self _)
    rw [cutQuotedText]
    dsimp only
    rw [hword]
    cases w' with
    | nil =>
      cases hrest
      refine ⟨Cursor.advance m' q, ?_⟩
      rw [List.append_nil]
      exact if_pos rfl
    | cons x w' =>
      have hx : x ≠ q := by
        rintro rfl
        have hgap := stops_cons_iff.mp hgap
        rw [hq.isGap_eq_false] at hgap
        exact nomatch hgap
      obtain ⟨g, w'', s'', m'', rfl, hrest', hlt, hcut⟩ :=
        hrest.exists_gap hq (List.cons_ne_nil _ _) hgap start t m'
      obtain ⟨m₁, htext⟩ := ih w''.length (by omega) hrest' m'' (n := n)
        (by rw [List.length_append] at hn ⊢; omega) rfl
      refine ⟨m₁, ?_⟩
      have hpeek : ¬Cursor.peek ⟨x :: w' ++ q :: t, m'⟩ = some q := fun h ↦ hx (Option.some.inj h)
      change (if Cursor.peek ⟨x :: w' ++ q :: t, m'⟩ = some q then _ else _) = _
      rw [if_neg hpeek, hcut]
      simp only [bind, Except.bind, htext]
      rw [← List.append_assoc]
      rfl

/-- What is written between quotes is read as the text that it stands for. -/
theorem QuotedText.exists_cutQuoted {w s : List Char} (h : QuotedText q w s) (hq : IsQuote q)
    (ht : Stops (· == '\'') t) (m : Mark) :
    ∃ m', cutQuoted q ⟨q :: (w ++ q :: t), m⟩ = .ok (⟨.scalar s .marked, m, m'⟩, ⟨t, m'⟩) := by
  obtain ⟨m', htext⟩ := h.exists_cutQuotedText hq ht m (Cursor.advance m q)
    (n := (q :: (w ++ q :: t)).length + 1) (by rw [List.length_cons]; omega)
  refine ⟨m', ?_⟩
  unfold cutQuoted Cursor.next
  dsimp only
  rw [htext]
  rfl

end Reading

/-! ## Writing between single quotes -/

section Single

variable {l : Layout}

theorem foldedText_newline (single : Bool) (column : ℕ) (before : Option Char) (s : List Char) :
    foldedText l single column before ('\n' :: s) =
      (if before = some '\n' then [] else ['\n']) ++
        if s.head? = some '\n' then '\n' :: foldedText l single column (some '\n') s
        else l.newLine ++ foldedText l single l.indent (some '\n') s := by
  have hspace : '\n' ≠ ' ' := by decide
  rw [foldedText, if_neg hspace, if_pos rfl]
  dsimp only
  split
  · rfl
  · exact List.append_assoc _ _ _

/-- Line feeds behind a line feed, and the indentation behind the last one. -/
theorem foldedText_newlines (single : Bool) (column k : ℕ) {s : List Char}
    (hs : s.head? ≠ some '\n') :
    foldedText l single column (some '\n') (List.replicate (k + 1) '\n' ++ s) =
      List.replicate (k + 1) '\n' ++ (List.replicate l.indent ' ' ++
        foldedText l single l.indent (some '\n') s) := by
  induction k with
  | zero =>
    change foldedText l single column (some '\n') ('\n' :: s) = _
    rw [foldedText_newline, if_pos rfl, if_neg hs]
    rfl
  | succ k ih =>
    have hhead : (List.replicate (k + 1) '\n' ++ s).head? = some '\n' := rfl
    rw [List.replicate_succ, List.cons_append, foldedText_newline, if_pos rfl, if_pos hhead, ih]
    rfl

/-- The first one of some line feeds is written twice. -/
theorem foldedText_first_newline (single : Bool) (column : ℕ) {before : Option Char}
    (hbefore : before ≠ some '\n') (s : List Char) :
    foldedText l single column before ('\n' :: s) =
      '\n' :: foldedText l single column (some '\n') ('\n' :: s) := by
  rw [foldedText_newline, foldedText_newline, if_neg hbefore, if_pos rfl]
  rfl

theorem exists_newlines (s : List Char) :
    ∃ k s', s = List.replicate k '\n' ++ s' ∧ s'.head? ≠ some '\n' := by
  induction s with
  | nil => exact ⟨0, [], rfl, nofun⟩
  | cons c s ih =>
    by_cases hc : c = '\n'
    · obtain ⟨k, s', rfl, hs⟩ := ih
      exact ⟨k + 1, s', hc ▸ rfl, hs⟩
    · exact ⟨0, c :: s, rfl, fun h ↦ hc (Option.some.inj h)⟩

/-- A text that single quotes can hold. -/
structure Holdable (s : List Char) : Prop where
  simple : IsDocument s
  apart : hasBreakAtSpace s = false

theorem holdable_of_isSingle {s : List Char} (h : isSingle s = true) : Holdable s := by
  simp only [isSingle, Bool.and_eq_true, List.all_eq_true, Bool.or_eq_true, beq_iff_eq,
    Bool.not_eq_true'] at h
  exact ⟨h.1, h.2⟩

theorem Holdable.tail {c : Char} {s : List Char} (h : Holdable (c :: s)) : Holdable s := by
  refine ⟨(List.forall_mem_cons.mp h.simple).2, ?_⟩
  cases s with
  | nil => rfl
  | cons d s => exact (Bool.or_eq_false_iff.mp h.apart).2

theorem Holdable.head_ne_space {s : List Char} (h : Holdable ('\n' :: s)) :
    s.head? ≠ some ' ' := by
  cases s with
  | nil => exact nofun
  | cons d s =>
    rintro ⟨⟩
    exact absurd h.apart (by simp [hasBreakAtSpace])

theorem Holdable.head_ne_newline {s : List Char} (h : Holdable (' ' :: s)) :
    s.head? ≠ some '\n' := by
  cases s with
  | nil => exact nofun
  | cons d s =>
    rintro ⟨⟩
    exact absurd h.apart (by simp [hasBreakAtSpace])

theorem Holdable.behind_newlines {s : List Char} (k : ℕ)
    (h : Holdable (List.replicate (k + 1) '\n' ++ s)) : Holdable ('\n' :: s) := by
  induction k with
  | zero => exact h
  | succ k ih => exact ih h.tail

/-- What is written for a text that starts with a visible character starts with one. -/
theorem stops_isGap_foldedText (column : ℕ) (before : Option Char) {s : List Char}
    (h : Holdable s) (hspace : s.head? ≠ some ' ') (hbreak : s.head? ≠ some '\n') :
    Stops isGap (foldedText l true column before s) := by
  cases s with
  | nil => exact stops_nil
  | cons c s =>
    have hspace : c ≠ ' ' := fun hc ↦ hspace (congrArg some hc)
    have hbreak : c ≠ '\n' := fun hc ↦ hbreak (congrArg some hc)
    by_cases hquote : c = '\''
    · rw [foldedText, if_neg hspace, if_neg hbreak, if_pos ⟨rfl, hquote⟩]
      exact stops_cons_iff.mpr rfl
    · rw [foldedText_char l true column before s hspace hbreak (.inr hquote)]
      have hsimple := ((List.forall_mem_cons.mp h.simple).1).resolve_right hbreak
      exact stops_cons_iff.mpr (isGap_of_isSimple hsimple hspace)

/-- Line feeds in front of a text that goes on between single quotes. -/
theorem quotedText_newlines (hindent : l.indent ≠ 0) {s : List Char} (k : ℕ)
    (h : Holdable ('\n' :: s)) (hs : s.head? ≠ some '\n')
    (hrest : QuotedText '\'' (foldedText l true l.indent (some '\n') s) s) (column : ℕ)
    {before : Option Char} (hbefore : before ≠ some '\n') :
    QuotedText '\'' (foldedText l true column before ('\n' :: (List.replicate k '\n' ++ s)))
      ('\n' :: (List.replicate k '\n' ++ s)) := by
  have hwritten := foldedText_newlines (l := l) true column k hs
  rw [List.replicate_succ, List.cons_append] at hwritten
  rw [foldedText_first_newline true column hbefore, hwritten]
  exact .breaks (k + 1) hindent (stops_isGap_foldedText _ _ h.tail h.head_ne_space hs) hrest

/-- A space in front of a text that goes on between single quotes. -/
theorem quotedText_space (hindent : l.indent ≠ 0) {s : List Char} (h : Holdable (' ' :: s))
    (hrest : ∀ column, QuotedText '\'' (foldedText l true column (some ' ') s) s) (column : ℕ)
    (before : Option Char) :
    QuotedText '\'' (foldedText l true column before (' ' :: s)) (' ' :: s) := by
  have hs := h.head_ne_newline
  obtain hwritten | ⟨-, -, hspace, hwritten⟩ := foldedText_space l true column before s
  · rw [hwritten]
    refine .space ?_ (hrest _)
    by_cases hspace : s.head? = some ' '
    · cases s with
      | nil => exact stops_nil
      | cons d s =>
        obtain rfl := Option.some.inj hspace
        rw [foldedText_second_space]
        exact stops_cons_iff.mpr rfl
    · exact (stops_isGap_foldedText _ _ h.tail hspace hs).isBreak
  · rw [hwritten]
    exact .breaks 0 hindent (stops_isGap_foldedText _ _ h.tail hspace hs) (hrest _)

/-- What is written between single quotes stands for the text. -/
theorem quotedText_foldedText (hindent : l.indent ≠ 0) {s : List Char} (h : Holdable s)
    (column : ℕ) {before : Option Char} (hbefore : s.head? = some '\n' → before ≠ some '\n') :
    QuotedText '\'' (foldedText l true column before s) s := by
  induction hlength : s.length using Nat.strong_induction_on generalizing s column before with
  | _ n ih =>
    subst hlength
    cases s with
    | nil => exact .nil
    | cons c s =>
      by_cases hbreak : c = '\n'
      · subst hbreak
        -- all line feeds in a row are written together
        obtain ⟨k, s, rfl, hs⟩ := exists_newlines s
        have hnext : Holdable ('\n' :: s) := h.behind_newlines k
        refine quotedText_newlines hindent k hnext hs ?_ column (hbefore rfl)
        exact ih s.length (by rw [List.length_cons, List.length_append]; omega) hnext.tail l.indent
          (fun h ↦ absurd h hs) rfl
      · have hrest : ∀ column before, (s.head? = some '\n' → before ≠ some '\n') →
            QuotedText '\'' (foldedText l true column before s) s :=
          fun column before hbefore ↦ ih s.length (Nat.lt_succ_self _) h.tail column hbefore rfl
        by_cases hspace : c = ' '
        · subst hspace
          exact quotedText_space hindent h
            (fun column ↦ hrest column _ fun hn ↦ absurd hn h.head_ne_newline) column before
        · have hsimple := ((List.forall_mem_cons.mp h.simple).1).resolve_right hbreak
          have hcbreak : some c ≠ some '\n' := fun hc ↦ hbreak (Option.some.inj hc)
          by_cases hquote : c = '\''
          · rw [foldedText, if_neg hspace, if_neg hbreak, if_pos ⟨rfl, hquote⟩, hquote]
            exact .twice rfl (hrest _ _ fun _ ↦ hquote ▸ hcbreak)
          · rw [foldedText_char l true column before s hspace hbreak (.inr hquote)]
            exact .char hsimple hspace hquote (fun h ↦ absurd h (by decide))
              (hrest _ _ fun _ ↦ hcbreak)

end Single

/-! ## Writing between double quotes -/

section Double

variable {l : Layout} {column : ℕ} {first behindEscape : Bool}

/-- A text behind a fold. -/
def foldedEscapedText (l : Layout) (s : List Char) : List Char :=
  if s.head? = some ' ' then
    '\\' :: (l.newLine ++ '\\' :: escapedText l (l.indent + 1) false true s)
  else '\\' :: (l.newLine ++ escapedText l l.indent false true s)

theorem escapedText_of_escape {c : Char} {e s : List Char} (he : escape? c = some e) :
    escapedText l column first behindEscape (c :: s) = e ++ foldedEscapedText l s ∨
      ∃ column', escapedText l column first behindEscape (c :: s) =
        e ++ escapedText l column' false true s := by
  rw [escapedText]
  simp only [he]
  split
  · refine .inl ?_
    unfold foldedEscapedText
    split
    · simp
    · simp
  · exact .inr ⟨_, rfl⟩

/-- What is written for a character with an escape starts with the backslash. -/
theorem stops_escapedText_of_escape {c : Char} {e s : List Char} (he : escape? c = some e)
    {p : Char → Bool} (hp : p '\\' = false) :
    Stops p (escapedText l column first behindEscape (c :: s)) := by
  obtain ⟨e', rfl, -⟩ := exists_escapes_of_escape? he
  obtain h | ⟨column', h⟩ := escapedText_of_escape he
  · rw [h]
    exact stops_cons_iff.mpr hp
  · rw [h]
    exact stops_cons_iff.mpr hp

theorem escapedText_of_le {c : Char} {s : List Char} (hc : escape? c = none)
    (hcolumn : column ≤ l.width) (first behindEscape : Bool) :
    escapedText l column first behindEscape (c :: s) =
      c :: escapedText l (column + 1) false false s := by
  rw [escapedText]
  simp only [hc]
  rw [if_neg]
  simp only [Bool.and_eq_true, decide_eq_true_eq, not_and, Nat.not_lt]
  exact fun _ ↦ hcolumn

theorem escapedText_of_simple (hwidth : l.indent < l.width) {c : Char} {s : List Char}
    (hc : escape? c = none) :
    escapedText l column first behindEscape (c :: s) = foldedEscapedText l (c :: s) ∨
      escapedText l column first behindEscape (c :: s) =
        c :: escapedText l (column + 1) false false s := by
  have hindent := escapedText_of_le (s := s) hc hwidth.le false true
  have hnext := escapedText_of_le (s := s) hc hwidth false true
  rw [escapedText]
  simp only [hc]
  split
  · refine .inl ?_
    unfold foldedEscapedText
    split
    · rename_i hspace
      rw [hnext]
      obtain rfl := Option.some.inj hspace
      simp
    · rename_i hspace
      rw [hindent]
      have hspace : c ≠ ' ' := fun h ↦ hspace (congrArg some h)
      simp [hspace]
  · exact .inr rfl

/-- What is written does not start with a line break. -/
theorem stops_isBreak_escapedText (hwidth : l.indent < l.width) (s : List Char) :
    Stops isBreak (escapedText l column first behindEscape s) := by
  have hfolded : ∀ s, Stops isBreak (foldedEscapedText l s) := fun s ↦ by
    unfold foldedEscapedText
    split <;> exact stops_cons_iff.mpr rfl
  cases s with
  | nil => exact stops_nil
  | cons c s =>
    cases hc : escape? c with
    | some e => exact stops_escapedText_of_escape hc rfl
    | none =>
      obtain h | h := escapedText_of_simple hwidth hc
      · rw [h]
        exact hfolded _
      · rw [h]
        exact stops_cons_iff.mpr (isBreak_of_isSimple (simple_of_escape? hc).1)

/-- What is written for a text that does not start with a space does not start with a gap. -/
theorem stops_isGap_escapedText {s : List Char} (hcolumn : column ≤ l.width)
    (hs : s.head? ≠ some ' ') : Stops isGap (escapedText l column first behindEscape s) := by
  cases s with
  | nil => exact stops_nil
  | cons c s =>
    cases hc : escape? c with
    | some e => exact stops_escapedText_of_escape hc rfl
    | none =>
      rw [escapedText_of_le hc hcolumn]
      have hne : c ≠ ' ' := fun h ↦ hs (congrArg some h)
      exact stops_cons_iff.mpr (isGap_of_isSimple (simple_of_escape? hc).1 hne)

theorem quotedText_foldedEscapedText (hindent : l.indent ≠ 0) (hwidth : l.indent < l.width)
    {s : List Char}
    (h : ∀ column, column ≤ l.width → QuotedText '"' (escapedText l column false true s) s) :
    QuotedText '"' (foldedEscapedText l s) s := by
  unfold foldedEscapedText
  split
  · rename_i hspace
    cases s with
    | nil => exact nomatch hspace
    | cons c s =>
      obtain rfl := Option.some.inj hspace
      have hread := h (l.indent + 1) hwidth
      rw [escapedText_of_le (by decide) hwidth] at hread ⊢
      cases hread with
      | char hsimple hspace => exact absurd rfl hspace
      | space hw hread =>
        exact .join rfl hindent (stops_cons_iff.mpr rfl)
          (.escape rfl (escapes_letter (by decide) (by decide)) hread)
  · rename_i hspace
    exact .join rfl hindent (stops_isGap_escapedText hwidth.le hspace) (h l.indent hwidth.le)

/-- What is written between double quotes stands for the text. -/
theorem quotedText_escapedText (hindent : l.indent ≠ 0) (hwidth : l.indent < l.width)
    (s : List Char) : QuotedText '"' (escapedText l column first behindEscape s) s := by
  induction s generalizing column first behindEscape with
  | nil => exact .nil
  | cons c s ih =>
    cases hc : escape? c with
    | some e =>
      obtain ⟨e', rfl, he⟩ := exists_escapes_of_escape? hc
      obtain h | ⟨column, h⟩ := escapedText_of_escape hc
      · rw [h]
        exact .escape rfl he (quotedText_foldedEscapedText hindent hwidth fun _ _ ↦ ih)
      · rw [h]
        exact .escape rfl he ih
    | none =>
      obtain ⟨hsimple, hquote, hbackslash⟩ := simple_of_escape? hc
      have hread : ∀ column, QuotedText '"' (c :: escapedText l column false false s) (c :: s) := by
        intro column
        by_cases hspace : c = ' '
        · subst hspace
          exact .space (stops_isBreak_escapedText hwidth s) ih
        · exact .char hsimple hspace hquote (fun _ ↦ hbackslash) ih
      obtain h | h := escapedText_of_simple hwidth hc
      · rw [h]
        refine quotedText_foldedEscapedText hindent hwidth fun column hcolumn ↦ ?_
        rw [escapedText_of_le hc hcolumn]
        exact hread _
      · rw [h]
        exact hread _

end Double

end WaveNotebook.Document
