import WaveNotebook.Proofs.Literal.Reader
import WaveNotebook.Proofs.Scan.Balance

/-!
# Literals and scanners

The tokens of a literal are words, numerals and marks, in which no quote, parenthesis, equals sign
or slash stands, and quoted texts, which the scanners take for spans. Brackets of lists and records
are in pairs around the commas of their items. So a literal is balanced and one piece between
commas, and what it shares with the syntax of statements and comments is in quotes.
-/

namespace WaveNotebook

open Text Scan

namespace Literal

/-! ## The characters of tokens -/

/-- The characters that have a meaning for the scanners of statements. -/
def reserved : List Char := ['\'', '"', '(', ')', '[', ']', '{', '}', ',', '=', '/']

/-- A visible character without a meaning for the scanners. -/
structure Inert (c : Char) : Prop where
  visible : isBlank c = false
  unreserved : c ∉ reserved

theorem Inert.plain {c : Char} (h : Inert c) : Plain c := by
  have hc := h.unreserved
  simp only [reserved, List.mem_cons, not_or] at hc
  obtain ⟨hsingle, hdouble, ho, hc, ho', hc', ho'', hc'', -⟩ := hc
  refine ⟨by simp [isQuote, hsingle, hdouble], ?_, ?_⟩
  · unfold closerOf
    split <;> first | rfl | contradiction
  · unfold openerOf
    split <;> first | rfl | contradiction

/-- Characters of a class that has neither blanks nor reserved characters in it. -/
theorem Inert.of_class {p : Char → Bool} (hblank : ∀ {c}, isBlank c = true → p c = false)
    (hnone : reserved.any p = false) {c : Char} (h : p c = true) : Inert c where
  visible := by
    rw [Bool.eq_false_iff]
    intro hc
    rw [hblank hc] at h
    cases h
  unreserved hmem := List.any_eq_false.mp hnone c hmem h

/-- A character that stands in quoted tokens only. -/
structure Foreign (c : Char) : Prop where
  visible : isBlank c = false
  quote : isQuote c = false
  unmarked : c ∉ marks
  mem_reserved : c ∈ reserved

theorem foreign_equals : Foreign '=' :=
  ⟨rfl, rfl, by decide, by decide⟩

theorem foreign_slash : Foreign '/' :=
  ⟨rfl, rfl, by decide, by decide⟩

theorem inert_of_isPlainName {name : List Char} (h : isPlainName name = true) :
    ∀ c ∈ name, Inert c :=
  fun c hc ↦ .of_class isPlainPart_of_isBlank (by decide) (isPlainPart_of_isPlainName h c hc)

theorem inert_of_numeralText {n : Numeral} {a : List Char} (h : NumeralText a n) :
    ∀ c ∈ a, Inert c := by
  intro c hc
  obtain hdigit | hmem := h.isDigit_or_mem c hc
  · exact .of_class isDigit_of_isBlank (by decide) hdigit
  · simp only [List.mem_cons, List.not_mem_nil, or_false] at hmem
    obtain rfl | rfl | rfl | rfl | rfl := hmem <;> exact ⟨rfl, by decide⟩

section

variable {a : List Char} (h : ∀ c ∈ a, Inert c) {d : Char} (hd : d ∈ reserved)

include h hd

theorem not_mem_of_inert : d ∉ a :=
  fun hmem ↦ (h d hmem).unreserved hd

theorem isPiece_of_inert : IsPiece d a :=
  .of_forall fun c hc ↦ ⟨(h c hc).plain, fun heq ↦ (h c hc).unreserved (heq ▸ hd)⟩

theorem hides_of_inert : Hides d a :=
  .of_forall fun c hc ↦ ⟨(h c hc).plain.quote, fun heq ↦ (h c hc).unreserved (heq ▸ hd)⟩

end

/-- A token is a mark, a quoted text, or free of the characters that scanners look at. -/
theorem Spelling.cases {t : Token} {a : List Char} (h : Spelling t a) :
    (∃ c ∈ marks, t = .mark c ∧ a = [c]) ∨
      (∃ quote inner, isQuote quote = true ∧ quote ∉ inner ∧ a = quote :: (inner ++ [quote])) ∨
      a ≠ [] ∧ ∀ c ∈ a, Inert c := by
  cases h with
  | numeral h =>
    obtain ⟨c, cs, rfl, -⟩ := of_numeralText h
    exact .inr (.inr ⟨List.cons_ne_nil _ _, inert_of_numeralText h⟩)
  | quoted hquote hs => exact .inr (.inl ⟨_, _, hquote, hs, rfl⟩)
  | word h =>
    refine .inr (.inr ⟨?_, inert_of_isPlainName h⟩)
    rintro rfl
    cases h
  | mark h => exact .inl ⟨_, h, rfl, rfl⟩

/-- A token that is no mark is one piece. -/
theorem Spelling.isPiece {t : Token} {a : List Char} (h : Spelling t a) (ht : ¬t.IsMark)
    {sep : Char} (hsep : sep ∈ reserved) : IsPiece sep a := by
  obtain ⟨c, -, rfl, -⟩ | ⟨quote, inner, hquote, hinner, rfl⟩ | ⟨-, hinert⟩ := h.cases
  · exact absurd trivial ht
  · exact .span hquote hinner
  · exact isPiece_of_inert hinert hsep

theorem Spelling.hides {t : Token} {a : List Char} (h : Spelling t a) {d : Char}
    (hd : Foreign d) : Hides d a := by
  obtain ⟨c, hc, rfl, rfl⟩ | ⟨quote, inner, hq, hinner, rfl⟩ | ⟨-, hinert⟩ := h.cases
  · exact .single (of_mem_marks hc).1 fun heq ↦ hd.unmarked (heq ▸ hc)
  · exact .span hd.quote hq hinner
  · exact hides_of_inert hinert hd.mem_reserved

/-- A token begins and ends with a visible character. -/
theorem Spelling.visible {t : Token} {a : List Char} (h : Spelling t a) :
    (∃ c cs, a = c :: cs ∧ isBlank c = false) ∧ EndsVisible a := by
  obtain ⟨c, hc, -, rfl⟩ | ⟨quote, inner, hq, -, rfl⟩ | ⟨hne, hinert⟩ := h.cases
  · have hblank := (of_mem_marks hc).2.1
    exact ⟨⟨c, [], rfl, hblank⟩, ⟨[], c, rfl, hblank⟩⟩
  · have hblank := isBlank_of_isQuote hq
    exact ⟨⟨quote, _, rfl, hblank⟩, ⟨quote :: inner, quote, rfl, hblank⟩⟩
  · refine ⟨?_, .of_forall hne fun c hc ↦ (hinert c hc).visible⟩
    obtain ⟨c, cs, rfl⟩ := List.exists_cons_of_ne_nil hne
    exact ⟨c, cs, rfl, (hinert c List.mem_cons_self).visible⟩

theorem Spelling.not_blanks {t : Token} {a : List Char} (h : Spelling t a) : ¬Blanks a := by
  obtain ⟨⟨c, cs, rfl, hc⟩, -⟩ := h.visible
  exact fun hblanks ↦ absurd ((blanks_cons_iff.mp hblanks).1.symm.trans hc) Bool.noConfusion

/-! ## Texts that are spelled by tokens -/

namespace Spells

variable {tokens tokens' : List Token} {s a b : List Char}

theorem mark {c : Char} (hs : Spells tokens s) (hc : c ∈ marks) :
    Spells (.mark c :: tokens) (c :: s) :=
  .token (.mark hc) hs

theorem append (ha : Spells tokens a) (hb : Spells tokens' b) :
    Spells (tokens ++ tokens') (a ++ b) := by
  induction ha with
  | nil => exact hb
  | blank hc _ ih => exact .blank hc ih
  | token ht _ ih =>
    rw [List.append_assoc]
    exact .token ht ih

theorem exists_append (h : Spells (tokens ++ tokens') s) :
    ∃ a b, s = a ++ b ∧ Spells tokens a ∧ Spells tokens' b := by
  generalize htokens : tokens ++ tokens' = all at h
  induction h generalizing tokens with
  | nil =>
    obtain ⟨rfl, rfl⟩ := List.append_eq_nil_iff.mp htokens
    exact ⟨[], [], rfl, .nil, .nil⟩
  | @blank all c s hc _ ih =>
    obtain ⟨a, b, rfl, ha, hb⟩ := ih htokens
    exact ⟨c :: a, b, rfl, .blank hc ha, hb⟩
  | @token t all text s ht hs ih =>
    cases tokens with
    | nil =>
      subst htokens
      exact ⟨[], text ++ s, rfl, .nil, .token ht hs⟩
    | cons u tokens =>
      obtain ⟨rfl, hrest⟩ := List.cons.inj htokens
      obtain ⟨a, b, rfl, ha, hb⟩ := ih hrest
      exact ⟨text ++ a, b, (List.append_assoc ..).symm, .token ht ha, hb⟩

theorem blanks_iff (h : Spells tokens s) : Blanks s ↔ tokens = [] := by
  induction h with
  | nil => exact iff_of_true blanks_nil rfl
  | blank hc _ ih => rw [blanks_cons_iff, and_iff_right hc, ih]
  | token ht _ _ =>
    exact iff_of_false (fun h ↦ ht.not_blanks (blanks_append_iff.mp h).1) (List.cons_ne_nil _ _)

theorem exists_single {t : Token} (h : Spells [t] s) :
    ∃ a text b, s = a ++ text ++ b ∧ Blanks a ∧ Blanks b ∧ Spelling t text := by
  generalize htokens : [t] = tokens at h
  induction h with
  | nil => cases htokens
  | @blank _ c s hc _ ih =>
    obtain ⟨a, text, b, rfl, ha, hb, ht⟩ := ih htokens
    exact ⟨c :: a, text, b, rfl, blanks_cons_iff.mpr ⟨hc, ha⟩, hb, ht⟩
  | @token _ _ text s ht hs _ =>
    obtain ⟨rfl, hnil⟩ := List.cons.inj htokens
    exact ⟨[], text, s, rfl, blanks_nil, hs.blanks_iff.mpr hnil.symm, ht⟩

theorem trimLeft (h : Spells tokens s) : Spells tokens (trimLeft s) := by
  induction h with
  | nil => exact .nil
  | @blank _ c s hc _ ih =>
    rw [show Text.trimLeft (c :: s) = Text.trimLeft s from List.dropWhile_cons_of_pos hc]
    exact ih
  | @token _ _ a s ht hs _ =>
    obtain ⟨c, cs, rfl, hc⟩ := ht.visible.1
    have hhead : Text.trimLeft (c :: cs) = c :: cs := List.dropWhile_cons_of_neg (by simp [hc])
    rw [trimLeft_append_of_not_blanks ht.not_blanks, hhead]
    exact .token ht hs

theorem trimRight (h : Spells tokens s) : Spells tokens (trimRight s) := by
  induction h with
  | nil => exact .nil
  | @blank _ c s hc _ ih =>
    by_cases hs : Blanks s
    · rw [trimRight_eq_nil_iff.mpr hs] at ih
      rw [trimRight_eq_nil_iff.mpr (blanks_cons_iff.mpr ⟨hc, hs⟩)]
      exact ih
    · rw [trimRight_cons_of_not_blanks hs]
      exact .blank hc ih
  | @token _ _ a s ht _ ih =>
    by_cases hs : Blanks s
    · rw [trimRight_eq_nil_iff.mpr hs] at ih
      rw [trimRight_append hs, ht.visible.2.trimRight_eq, ← List.append_nil a]
      exact .token ht ih
    · rw [trimRight_append_of_not_blanks hs]
      exact .token ht ih

/-- Blanks around the tokens are not needed. -/
theorem trim (h : Spells tokens s) : Spells tokens (trim s) :=
  h.trimLeft.trimRight

theorem hides (h : Spells tokens s) {d : Char} (hd : Foreign d) : Hides d s := by
  induction h with
  | nil => exact .nil
  | blank hc _ ih =>
    exact (Hides.single (isQuote_of_isBlank hc) (ne_of_isBlank hc hd.visible)).append ih
  | token ht _ ih => exact (ht.hides hd).append ih

end Spells

/-! ## Values are balanced -/

theorem Spells.isPiece_of_single {t : Token} {s : List Char} (h : Spells [t] s) (ht : ¬t.IsMark) :
    IsPiece ',' s := by
  obtain ⟨a, text, b, rfl, ha, hb, htext⟩ := h.exists_single
  exact (isPiece_pad (by decide) ha hb).mpr (htext.isPiece ht (by decide))

/-- A plain mark between two texts. -/
theorem Spells.balanced_mark {c : Char} (hc : Plain c) {tokens tokens' : List Token}
    {s : List Char} (h : Spells (tokens ++ .mark c :: tokens') s)
    (hleft : ∀ {a}, Spells tokens a → Balanced a) (hright : ∀ {b}, Spells tokens' b → Balanced b) :
    Balanced s := by
  obtain ⟨a, rest, rfl, ha, hrest⟩ := h.exists_append
  rw [← List.singleton_append] at hrest
  obtain ⟨m, b, rfl, hm, hb⟩ := hrest.exists_append
  obtain ⟨front, _, behind, rfl, hfront, hbehind, ⟨⟩⟩ := hm.exists_single
  have hmark : Balanced (front ++ [c] ++ behind) :=
    ((balanced_of_blanks hfront).append (.plain hc .nil)).append (balanced_of_blanks hbehind)
  exact (hleft ha).append (hmark.append (hright hb))

/-- A balanced text in brackets. -/
theorem Spells.isPiece_brackets {opener closer : Char} (hpair : closerOf opener = some closer)
    {tokens : List Token} {s : List Char}
    (h : Spells (.mark opener :: (tokens ++ [.mark closer])) s)
    (hinner : ∀ {a}, Spells tokens a → Balanced a) : IsPiece ',' s := by
  rw [← List.singleton_append] at h
  obtain ⟨o, rest, rfl, ho, hrest⟩ := h.exists_append
  obtain ⟨a, c, rfl, ha, hc⟩ := hrest.exists_append
  obtain ⟨front, _, middle, rfl, hfront, hmiddle, ⟨⟩⟩ := ho.exists_single
  obtain ⟨middle', _, behind, rfl, hmiddle', hbehind, ⟨⟩⟩ := hc.exists_single
  have hpiece : IsPiece ',' (opener :: (middle ++ a ++ middle' ++ [closer])) :=
    .pair hpair (((balanced_of_blanks hmiddle).append (hinner ha)).append
      (balanced_of_blanks hmiddle'))
  have htext : front ++ [opener] ++ middle ++ (a ++ (middle' ++ [closer] ++ behind)) =
      front ++ (opener :: (middle ++ a ++ middle' ++ [closer])) ++ behind := by simp
  rw [htext]
  exact (isPiece_pad (by decide) hfront hbehind).mpr hpiece

theorem Spells.isPiece_empty {opener closer : Char} (hpair : closerOf opener = some closer)
    {s : List Char} (h : Spells [.mark opener, .mark closer] s) : IsPiece ',' s :=
  Spells.isPiece_brackets hpair (show Spells (.mark opener :: ([] ++ [.mark closer])) s from h)
    fun ha ↦ balanced_of_blanks (ha.blanks_iff.mpr rfl)

theorem Key.not_isMark {t : Token} {key : String} (h : Key t key) : ¬t.IsMark := by
  cases h <;> exact id

/-- A key with a balanced text behind its colon. -/
theorem Spells.balanced_field {t : Token} {key : String} (hkey : Key t key) {tokens : List Token}
    {s : List Char} (h : Spells (t :: .mark ':' :: tokens) s)
    (hright : ∀ {b}, Spells tokens b → Balanced b) : Balanced s := by
  have hsplit : Spells ([t] ++ .mark ':' :: tokens) s := h
  exact hsplit.balanced_mark ⟨rfl, rfl, rfl⟩
    (fun ha ↦ (ha.isPiece_of_single hkey.not_isMark).balanced) hright

mutual

theorem Value.isPiece {outer : Bool} {tokens : List Token} {d : Datum} {s : List Char} :
    Value outer tokens d → Spells tokens s → IsPiece ',' s
  | .number _, hs => hs.isPiece_of_single id
  | .text _, hs => hs.isPiece_of_single id
  | .true, hs => hs.isPiece_of_single id
  | .false, hs => hs.isPiece_of_single id
  | .emptyList, hs => hs.isPiece_empty rfl
  | .list h, hs => Spells.isPiece_brackets rfl hs fun ha ↦ h.balanced ha
  | .emptyRecord, hs => hs.isPiece_empty rfl
  | .record h, hs => Spells.isPiece_brackets rfl hs fun ha ↦ h.balanced ha

theorem Items.balanced {tokens : List Token} {items : List Datum} {s : List Char} :
    Items tokens items → Spells tokens s → Balanced s
  | .one h, hs => (h.isPiece hs).balanced
  | .more hitems h, hs =>
    hs.balanced_mark ⟨rfl, rfl, rfl⟩ (fun ha ↦ hitems.balanced ha) fun hb ↦ (h.isPiece hb).balanced

theorem Pairs.balanced {tokens : List Token} {pairs : List (String × Datum)} {s : List Char} :
    Pairs tokens pairs → Spells tokens s → Balanced s
  | .one hkey h, hs => hs.balanced_field hkey fun hb ↦ (h.isPiece hb).balanced
  | .more hpairs hkey h, hs =>
    hs.balanced_mark ⟨rfl, rfl, rfl⟩ (fun ha ↦ hpairs.balanced ha) fun hb ↦
      hb.balanced_field hkey fun hb ↦ (h.isPiece hb).balanced

end

/-! ## Literals -/

variable {text : List Char} {d : Datum}

theorem Value.ne_nil {outer : Bool} {tokens : List Token} (h : Value outer tokens d) :
    tokens ≠ [] := by
  cases h <;> exact List.cons_ne_nil _ _

theorem Denotes.trim (h : Denotes text d) : Denotes (trim text) d := by
  obtain ⟨tokens, hs, hd⟩ := h
  exact ⟨tokens, hs.trim, hd⟩

/-- Commas of a literal are in quotes or in brackets that are closed. -/
theorem Denotes.isPiece (h : Denotes text d) : IsPiece ',' text := by
  obtain ⟨tokens, hs, hd⟩ := h
  exact hd.isPiece hs

theorem Denotes.not_blanks (h : Denotes text d) : ¬Blanks text := by
  obtain ⟨tokens, hs, hd⟩ := h
  rw [hs.blanks_iff]
  exact hd.ne_nil

/-- Literals between commas are spelled by their tokens and the commas. -/
theorem exists_spells_joinWith {texts : List (List Char)} (h : ∀ t ∈ texts, ∃ d, Denotes t d) :
    ∃ tokens, Spells tokens (Workspace.joinWith ',' texts) := by
  unfold Workspace.joinWith
  induction texts with
  | nil => exact ⟨[], .nil⟩
  | cons t texts ih =>
    obtain ⟨d, tokens, ht, -⟩ := h t List.mem_cons_self
    obtain ⟨rest, hrest⟩ := ih fun u hu ↦ h u (List.mem_cons_of_mem _ hu)
    cases texts with
    | nil =>
      rw [List.intercalate_singleton]
      exact ⟨tokens, ht⟩
    | cons u texts =>
      rw [List.intercalate_cons_cons]
      have hcomma : Spells [.mark ','] [','] := .token (.mark (by decide)) .nil
      exact ⟨_, (ht.append hcomma).append hrest⟩

end Literal

end WaveNotebook
