import Mathlib.Data.List.TakeWhile
import WaveNotebook.Document.Writer

/-!
# Cursors on simple text

What a document of settings is made of: simple characters, which are the visible ones of the Latin
script and the space, and line feeds. A simple character keeps the line and takes up one column, so
that behind simple text the place of a cursor is known.
-/

namespace WaveNotebook.Document

/-- The front of a text does not satisfy a test, be it that the text is empty. -/
def Stops (p : Char → Bool) (t : List Char) : Prop :=
  ∀ x, t.head? = some x → p x = false

section Stops

variable {p : Char → Bool} {x : Char} {s t : List Char}

@[simp]
theorem stops_nil : Stops p [] :=
  fun _ h ↦ nomatch h

@[simp]
theorem stops_cons_iff : Stops p (x :: t) ↔ p x = false :=
  ⟨fun h ↦ h x rfl, fun h _ hx ↦ Option.some.inj hx ▸ h⟩

theorem Stops.append (hs : Stops p s) (ht : Stops p t) : Stops p (s ++ t) := by
  cases s with
  | nil => exact ht
  | cons x s => exact stops_cons_iff.mpr (stops_cons_iff.mp hs)

theorem Stops.append_right (hs : Stops p s) (hne : s ≠ []) (t : List Char) : Stops p (s ++ t) := by
  obtain ⟨x, s, rfl⟩ := List.exists_cons_of_ne_nil hne
  exact stops_cons_iff.mpr (stops_cons_iff.mp hs)

theorem endsOr_of_stops (ht : Stops (fun x ↦ !p x) t) : endsOr p t.head? = true := by
  cases t with
  | nil => rfl
  | cons x t => simpa [endsOr] using stops_cons_iff.mp ht

theorem takeWhile_append_of_stops (hs : ∀ x ∈ s, p x = true) (ht : Stops p t) :
    (s ++ t).takeWhile p = s := by
  have hrest : t.takeWhile p = [] := by
    cases t with
    | nil => rfl
    | cons x t => rw [List.takeWhile_cons_of_neg (by simp [stops_cons_iff.mp ht])]
  rw [List.takeWhile_append_of_pos hs, hrest, List.append_nil]

end Stops

/-! ## Characters -/

/-- Simple characters and nothing else. -/
def Simple (s : List Char) : Prop :=
  ∀ c ∈ s, isSimple c = true

section Simple

variable {c : Char} {s t : List Char}

theorem isSimple_iff : isSimple c = true ↔ 0x20 ≤ c.toNat ∧ c.toNat ≤ 0x7E := by
  simp only [isSimple, Bool.and_eq_true, decide_eq_true_eq]
  rfl

theorem isBreak_of_isSimple (h : isSimple c = true) : isBreak c = false := by
  have hcode := isSimple_iff.mp h
  simp only [isBreak, Bool.or_eq_false_iff, beq_eq_false_iff_ne]
  refine ⟨⟨⟨?_, ?_⟩, ?_⟩, ?_⟩ <;> rintro rfl <;> revert hcode <;> decide

theorem isGap_of_isSimple (h : isSimple c = true) (hc : c ≠ ' ') : isGap c = false := by
  have hcode := isSimple_iff.mp h
  have htab : c ≠ '\t' := by
    rintro rfl
    revert hcode
    decide
  simp only [isGap, isSpace, isBreak_of_isSimple h, Bool.or_false, Bool.or_eq_false_iff,
    beq_eq_false_iff_ne]
  exact ⟨hc, htab⟩

/-- A text that starts with a visible character does not start with a gap. -/
theorem not_stops_of_isSimple (h : isSimple c = true) (hc : c ≠ ' ') (s : List Char) :
    ¬Stops (fun x ↦ !isGap x) (c :: s) := by
  rw [stops_cons_iff, isGap_of_isSimple h hc]
  exact Bool.noConfusion

theorem ne_space_of_not_isGap (h : isGap c = false) : c ≠ ' ' := by
  rintro rfl
  revert h
  decide

theorem isBreak_of_not_isGap (h : isGap c = false) : isBreak c = false :=
  (Bool.or_eq_false_iff.mp h).2

theorem isSpace_of_not_isGap (h : isGap c = false) : isSpace c = false :=
  (Bool.or_eq_false_iff.mp h).1

theorem Stops.isBreak (h : Stops isGap s) : Stops isBreak s :=
  fun x hx ↦ isBreak_of_not_isGap (h x hx)

theorem Stops.isSpace (h : Stops isGap s) : Stops isSpace s :=
  fun x hx ↦ isSpace_of_not_isGap (h x hx)

theorem ne_newline_of_isSimple (h : isSimple c = true) : c ≠ '\n' := by
  rintro rfl
  revert h
  decide

theorem simple_nil : Simple [] :=
  fun _ h ↦ nomatch h

theorem simple_cons_iff : Simple (c :: s) ↔ isSimple c = true ∧ Simple s :=
  List.forall_mem_cons

theorem simple_spaces (n : ℕ) : Simple (List.replicate n ' ') := by
  intro c hc
  rw [List.eq_of_mem_replicate hc]
  decide

/-- The characters of a document of settings. -/
def IsDocument (s : List Char) : Prop :=
  ∀ c ∈ s, isSimple c = true ∨ c = '\n'

theorem isDocument_nil : IsDocument [] :=
  fun _ h ↦ nomatch h

theorem isDocument_cons_iff : IsDocument (c :: s) ↔ (isSimple c = true ∨ c = '\n') ∧ IsDocument s :=
  List.forall_mem_cons

theorem isDocument_append_iff : IsDocument (s ++ t) ↔ IsDocument s ∧ IsDocument t :=
  List.forall_mem_append

theorem Simple.isDocument (h : Simple s) : IsDocument s :=
  fun c hc ↦ .inl (h c hc)

/-- The spaces at the front, for a relation that holds behind a space if it holds in front. -/
theorem exists_front_spaces {R : List Char → List Char → Prop} {P : List Char → Prop}
    (hR : ∀ w s, R w s → Stops isSpace w ∨
      ∃ w' s', w = ' ' :: w' ∧ s = ' ' :: s' ∧ R w' s' ∧ P w') (h : R t s) :
    ∃ k w' s', t = List.replicate k ' ' ++ w' ∧ s = List.replicate k ' ' ++ s' ∧ R w' s' ∧
      Stops isSpace w' ∧ (k ≠ 0 → P w') := by
  induction t generalizing s with
  | nil => exact ⟨0, [], s, rfl, rfl, h, stops_nil, fun h ↦ absurd rfl h⟩
  | cons x w ih =>
    obtain hspace | ⟨_, s, ⟨⟩, rfl, hrest, hafter⟩ := hR _ _ h
    · exact ⟨0, x :: w, s, rfl, rfl, h, hspace, fun h ↦ absurd rfl h⟩
    · obtain ⟨k, w', s', rfl, rfl, hrest, hspace, hafter'⟩ := ih hrest
      refine ⟨k + 1, w', s', rfl, rfl, hrest, hspace, fun _ ↦ ?_⟩
      cases k with
      | zero => exact hafter
      | succ k => exact hafter' (Nat.succ_ne_zero k)

end Simple

/-! ## Places -/

/-- The place behind a text. -/
def Mark.behind (m : Mark) (s : List Char) : Mark :=
  s.foldl Cursor.advance m

section Mark

variable {s t : List Char} (m : Mark)

theorem Cursor.advance_of_isSimple {c : Char} (h : isSimple c = true) :
    advance m c = ⟨m.index + 1, m.line, m.column + 1⟩ := by
  have hmark : c ≠ byteOrderMark := by
    rintro rfl
    revert h
    decide
  unfold advance
  rw [isBreak_of_isSimple h, if_neg Bool.false_ne_true, if_neg hmark]

theorem Mark.behind_simple (h : Simple s) :
    m.behind s = ⟨m.index + s.length, m.line, m.column + s.length⟩ := by
  induction s generalizing m with
  | nil => rfl
  | cons c s ih =>
    obtain ⟨hc, hs⟩ := simple_cons_iff.mp h
    change (Cursor.advance m c).behind s = _
    rw [ih _ hs, Cursor.advance_of_isSimple m hc, List.length_cons]
    simp only [Mark.mk.injEq, true_and]
    omega

theorem Mark.column_behind_simple (h : Simple s) : (m.behind s).column = m.column + s.length := by
  rw [m.behind_simple h]

end Mark

/-! ## Cursors -/

namespace Cursor

variable {p : Char → Bool} {s t : List Char} {m : Mark}

theorem skip_append (s t : List Char) (m : Mark) :
    skip ⟨s ++ t, m⟩ s.length = ⟨t, m.behind s⟩ := by
  unfold skip
  rw [List.drop_left, List.take_left]
  rfl

theorem span_append (hs : ∀ x ∈ s, p x = true) (ht : Stops p t) :
    span ⟨s ++ t, m⟩ p = (s, ⟨t, m.behind s⟩) := by
  unfold span
  dsimp only
  rw [takeWhile_append_of_stops hs ht, skip_append]

theorem span_of_stops (ht : Stops p t) : span ⟨t, m⟩ p = ([], ⟨t, m⟩) :=
  span_append (s := []) (fun _ h ↦ nomatch h) ht

theorem span_spaces (n : ℕ) (hp : p ' ' = true) (ht : Stops p t) :
    span ⟨List.replicate n ' ' ++ t, m⟩ p =
      (List.replicate n ' ', ⟨t, m.behind (List.replicate n ' ')⟩) := by
  refine span_append (fun x hx ↦ ?_) ht
  rwa [List.eq_of_mem_replicate hx]

theorem skipWhile_of_stops (ht : Stops p t) : skipWhile ⟨t, m⟩ p = ⟨t, m⟩ :=
  congrArg Prod.snd (span_of_stops ht)

theorem skipWhile_spaces (n : ℕ) (hp : p ' ' = true) (ht : Stops p t) :
    skipWhile ⟨List.replicate n ' ' ++ t, m⟩ p = ⟨t, m.behind (List.replicate n ' ')⟩ :=
  congrArg Prod.snd (span_spaces n hp ht)

theorem peekAt_one {c : Cursor} {x : Char} (h : c.rest = x :: t) : c.peekAt 1 = t.head? := by
  unfold peekAt
  rw [h]
  cases t <;> rfl

theorem takeBreak_newline (t : List Char) (m : Mark) :
    takeBreak ⟨'\n' :: t, m⟩ = some ('\n', ⟨t, advance m '\n'⟩) :=
  rfl

theorem takeBreak_of_stops (ht : Stops isBreak t) : takeBreak ⟨t, m⟩ = none := by
  cases t with
  | nil => rfl
  | cons x t =>
    have hx := stops_cons_iff.mp ht
    have hbreak : ¬(x = '\n' ∨ x = '\x85') := by
      rintro (rfl | rfl) <;> revert hx <;> decide
    unfold takeBreak peek
    dsimp only [List.head?_cons]
    rw [if_neg hbreak, hx, if_neg Bool.false_ne_true]

/-- Only a line that starts with a dash or a point can separate documents. -/
theorem seesSeparator_of_stops (ht : Stops (fun x ↦ x == '-' || x == '.') t) :
    seesSeparator ⟨t, m⟩ = false := by
  cases t with
  | nil => rfl
  | cons x t =>
    have hx := stops_cons_iff.mp ht
    simp only [Bool.or_eq_false_iff, beq_eq_false_iff_ne] at hx
    have hne : ∀ y : Char, x ≠ y → (y == x) = false := fun y h ↦ beq_false_of_ne h.symm
    simp [seesSeparator, seesWord, List.isPrefixOf, hne _ hx.1, hne _ hx.2]

end Cursor

/-! ## Characters of a whole document -/

theorem unifiedLines_of_notMem {s : List Char} (h : '\r' ∉ s) : unifiedLines s = s := by
  induction s with
  | nil => rfl
  | cons c s ih =>
    obtain ⟨hc, hs⟩ := not_or.mp (h ∘ List.mem_cons.mpr)
    rw [unifiedLines, ih hs]
    · rintro r rfl
      exact absurd rfl hc
    · rintro rfl
      exact absurd rfl hc

theorem isAllowed_of_isSimple {c : Char} (h : isSimple c = true) : isAllowed c = true := by
  obtain ⟨hleast, hmost⟩ := isSimple_iff.mp h
  simp only [isAllowed, Bool.or_eq_true, Bool.and_eq_true, decide_eq_true_eq]
  exact .inl (.inl (.inl (.inl (.inr ⟨hleast, hmost⟩))))

/-- A text of simple characters and line feeds is taken as it is. -/
theorem tokensOf_eq {s : List Char} (h : IsDocument s) :
    tokensOf s = Lexer.run (s.length + 1) (.start s) := by
  have hreturn : '\r' ∉ s := fun hmem ↦ by
    obtain hsimple | hnewline := h _ hmem
    · exact absurd hsimple (by decide)
    · exact absurd hnewline (by decide)
  have hallowed : s.takeWhile isAllowed = s := by
    refine List.takeWhile_eq_self_iff.mpr fun c hc ↦ ?_
    obtain hsimple | rfl := h c hc
    · exact isAllowed_of_isSimple hsimple
    · decide
  unfold tokensOf
  rw [unifiedLines_of_notMem hreturn]
  dsimp only
  rw [hallowed, List.getElem?_eq_none (Nat.le_refl _)]

end WaveNotebook.Document
