import WaveNotebook.Proofs.Outcome
import WaveNotebook.Proofs.Scan.Balance
import WaveNotebook.Proofs.Workspace.Expression

/-!
# Calls in balanced texts

The scan for a closing parenthesis starts in the middle of a text and counts round brackets only,
while splitting keeps all brackets from the start. On a balanced text they agree: the parenthesis
that is found closes the bracket, what stands inside is balanced, and so is the text without the
pair. Hence a line that can be split at its signs of assignment has only balanced expressions, and
no call in it, however deep, fails on a bracket or a quote when it is taken apart, if its first
parenthesis stands outside quoted spans. A call whose first parenthesis is quoted is always refused:
the scan that starts inside a span takes what is quoted for unquoted up to the end of the text.
-/

namespace WaveNotebook

open Text Scan Workspace

namespace Scan

/-! ## The pair of a parenthesis -/

/-- A balanced text around a parenthesis outside quoted spans. -/
theorem Balanced.exists_pair {before behind : List Char}
    (h : Balanced (before ++ '(' :: behind)) (hquote : openQuote none before = none) :
    ∃ inner rest, behind = inner ++ ')' :: rest ∧ Balanced inner ∧ Balanced (before ++ rest) := by
  obtain ⟨quote, due, hbefore, hscan⟩ := scans_append.mp (balanced_iff_scans.mp h)
  obtain rfl : quote = none := hbefore.quote_eq.trans hquote
  cases hscan with
  | cons hopen hbehind =>
    cases hopen with
    | quote h => cases h
    | other h => cases h.closer
    | closer _ h _ => cases h
    | opener _ hcloser =>
      -- the text behind closes the parenthesis first, and the brackets around it then
      cases hcloser
      generalize hdue : ')' :: due = due' at hbehind
      cases scans_iff_closes.mp hbehind with
      | nil _ => cases hdue
      | cons _ hinner hrest =>
        obtain ⟨rfl, rfl⟩ := List.cons.inj hdue
        refine ⟨_, _, rfl, hinner, balanced_iff_scans.mpr ?_⟩
        exact scans_append.mpr ⟨_, _, hbefore, hrest.scans⟩

/-- The parenthesis that is found is the one that the brackets of the text match. -/
theorem Balanced.matchingParen_eq {inner : List Char} (h : Balanced inner)
    (before rest : List Char) :
    matchingParen (before ++ '(' :: (inner ++ ')' :: rest)) before.length =
      .ok (before.length + 1 + inner.length) := by
  obtain ⟨pieces, hpieces⟩ := (exists_splitTopLevel_iff ',' inner).mpr h
  exact matchingParen_append hpieces before rest

/-! ## Blanks around balanced texts -/

theorem scans_of_blanks {b due due' : List Char} {quote quote' : Option Char} (hb : Blanks b)
    (hquote : ∀ q ∈ quote, isQuote q = true) (h : Scans b quote due quote' due') :
    quote' = quote ∧ due' = due := by
  induction h with
  | nil => exact ⟨rfl, rfl⟩
  | @cons c s quote due quote₁ due₁ _ _ hc _ ih =>
    have hblank : isBlank c = true := hb c List.mem_cons_self
    have hplain : Plain c := plain_of_isBlank hblank
    have hstate : quote₁ = quote ∧ due₁ = due := by
      cases hc with
      | inside => exact ⟨quoteAfter_of_isBlank hquote hblank, rfl⟩
      | quote h => exact absurd (hplain.quote.symm.trans h) Bool.false_ne_true
      | opener _ h => exact nomatch hplain.closer.symm.trans h
      | closer _ _ h => rw [hplain.opener] at h; cases h
      | other _ => exact ⟨rfl, rfl⟩
    obtain ⟨rfl, rfl⟩ := hstate
    exact ih (fun d hd ↦ hb d (List.mem_cons_of_mem _ hd)) hquote

theorem Balanced.trim {s : List Char} (h : Balanced s) : Balanced (trim s) := by
  have hnone : ∀ q ∈ (none : Option Char), isQuote q = true := fun _ hq ↦ nomatch hq
  obtain ⟨a, b, ha, hb, hs⟩ := exists_trim s
  rw [balanced_iff_scans, hs, scans_append] at h
  obtain ⟨quote, due, hleft, hright⟩ := h
  obtain ⟨quote', due', hfront, hscan⟩ := scans_append.mp hleft
  obtain ⟨rfl, rfl⟩ := scans_of_blanks ha hnone hfront
  have hquote : ∀ q ∈ quote, isQuote q = true := by
    rw [hleft.quote_eq]
    exact isQuote_of_openQuote hnone _
  obtain ⟨rfl, rfl⟩ := scans_of_blanks hb hquote hright
  exact balanced_iff_scans.mpr hscan

end Scan

/-! ## Lines -/

/-- What a line evaluates is balanced. -/
theorem Workspace.balanced_of_assignment {line expression : List Char} {target : Option String}
    (h : assignment line = .ok (target, expression)) : Balanced expression := by
  obtain ⟨pieces, hsplit, rfl | ⟨first, piece, rest, rfl, rfl⟩⟩ := split_of_assignment h
  · exact (exists_splitTopLevel_iff '=' _).mp ⟨pieces, hsplit⟩
  · have hpieces := isPiece_of_splitTopLevel hsplit
    have hjoin : splitTopLevel '=' (joinWith '=' (piece :: rest)) = .ok (piece :: rest) :=
      splitTopLevel_joinWith ⟨rfl, rfl, rfl⟩ (List.cons_ne_nil _ _) fun p hp ↦
        hpieces p (List.mem_cons_of_mem _ hp)
    exact ((exists_splitTopLevel_iff '=' _).mp ⟨_, hjoin⟩).trim

namespace Expr

/-- The expressions that the evaluation of a line comes to: the expression of the line itself, and
the arguments of each call among them, which is any text with a parenthesis. -/
inductive Within (line : List Char) : List Char → Prop
  | whole {target expression} (h : assignment line = .ok (target, expression)) :
    Within line (trim expression)
  | argument {s callee inner pieces p} (hs : Within line s) (hcall : '(' ∈ s)
    (hparts : callParts s = .ok (callee, inner)) (hpieces : splitArguments inner = .ok pieces)
    (hp : p ∈ pieces) : Within line p

section

variable {s inner : List Char}

/-- A call whose first parenthesis is quoted is not cut: the scan for the closing one takes what is
quoted for unquoted, so it finds none or leaves the quote that closes the span behind it. -/
theorem callParts_of_quoted (hclosed : openQuote none s = none)
    (hquoted : openQuote none (s.takeWhile (· != '(')) ≠ none) :
    callParts s = .error (.unmatched '(') ∨ ∃ behind, callParts s = .error (.afterCall behind) := by
  generalize hbefore : s.takeWhile (· != '(') = before at hquoted
  obtain ⟨rest, rfl⟩ : before <+: s := hbefore ▸ List.takeWhile_prefix _
  unfold callParts matchingParen
  dsimp only
  rw [hbefore, List.drop_left]
  cases hstop : closingParen? none 0 before.length rest with
  | none => exact .inl rfl
  | some stop =>
    obtain ⟨inner, behind, rfl, rfl, hinner⟩ := exists_of_closingParen? hstop
    have hbehind : ¬Blanks behind := by
      intro hblanks
      have hnone : ∀ q ∈ (none : Option Char), isQuote q = true := fun _ hq ↦ nomatch hq
      have hscan : openQuote none (inner ++ ')' :: behind) = none := by
        rw [openQuote_append, hinner, openQuote_cons]
        exact openQuote_of_blanks hnone hblanks
      rw [openQuote_append] at hclosed
      have hagree := hclosed.trans hscan.symm
      exact hquoted (openQuote_inj (isQuote_of_openQuote hnone before) hnone hagree)
    have hdrop : (before ++ (inner ++ ')' :: behind)).drop (before.length + inner.length + 1) =
        behind := by
      rw [← List.append_assoc, ← List.length_append, List.drop_length_add_append]
      rfl
    have htrim : (!(trim behind).isEmpty) = true := by
      simpa [trim_eq_nil_iff] using hbehind
    right
    dsimp only [Bind.bind, Except.bind]
    rw [hdrop, if_pos htrim]
    exact ⟨_, rfl⟩

/-- A balanced call is cut at a pair of parentheses, or it fails for what stands around them. -/
theorem balanced_callParts (h : Balanced s) (hcall : '(' ∈ s)
    (hquote : openQuote none (s.takeWhile (· != '(')) = none) :
    Ends (¬Unbalanced ·) (fun parts ↦ Balanced parts.2) (callParts s) := by
  obtain ⟨before, behind, rfl, hbefore⟩ := List.eq_append_cons_of_mem hcall
  rw [takeWhile_before hbefore] at hquote
  obtain ⟨inner, rest, rfl, hinner, -⟩ := h.exists_pair hquote
  obtain ⟨pieces, hpieces⟩ := (exists_splitTopLevel_iff ',' inner).mpr hinner
  rw [callParts_eq hbefore hpieces]
  split
  · exact .error fun h ↦ nomatch h
  · split
    · exact .error fun h ↦ nomatch h
    · exact .ok hinner.trim

/-- Arguments of a balanced text are balanced, and only an empty one is a fault. -/
theorem balanced_splitArguments (h : Balanced inner) :
    Ends (¬Unbalanced ·) (fun pieces ↦ ∀ p ∈ pieces, Balanced p) (splitArguments inner) := by
  obtain ⟨parts, hparts⟩ := (exists_splitTopLevel_iff ',' inner).mpr h
  have hpieces : ∀ p ∈ parts.map trim, Balanced p := by
    intro p hp
    obtain ⟨part, hpart, rfl⟩ := List.mem_map.mp hp
    exact (isPiece_of_splitTopLevel hparts part hpart).balanced.trim
  unfold splitArguments
  rw [hparts]
  split
  · exact .ok fun _ hp ↦ nomatch hp
  · change Ends _ _ (if (parts.map trim).any List.isEmpty then _ else _)
    split
    · exact .error fun h ↦ nomatch h
    · exact .ok hpieces

/-- A balanced call that is cut has its first parenthesis outside quoted spans. -/
theorem openQuote_of_callParts {callee : List Char} (h : Balanced s)
    (hparts : callParts s = .ok (callee, inner)) :
    openQuote none (s.takeWhile (· != '(')) = none := by
  by_contra hquoted
  obtain hfault | ⟨behind, hfault⟩ := callParts_of_quoted h.openQuote_eq hquoted
  · cases hparts.symm.trans hfault
  · cases hparts.symm.trans hfault

end

/-- All expressions of a line are balanced. -/
theorem Within.balanced {line s : List Char} (h : Within line s) : Balanced s := by
  induction h with
  | whole h => exact (balanced_of_assignment h).trim
  | argument _ hcall hparts hpieces hp ih =>
    have hcut := balanced_callParts ih hcall (openQuote_of_callParts ih hparts)
    rw [hparts] at hcut
    have harguments := balanced_splitArguments hcut.value
    rw [hpieces] at harguments
    exact harguments.value _ hp

/-- In a text that can be split, each parenthesis outside quoted spans is matched by one outside
quoted spans, and both the text between the two and the text without them and what they enclose
can be split again. So the calls in a line that has been split at its signs of assignment are taken
apart without a fault of quotes or brackets, if their first parenthesis stands outside quoted spans.
Else no arguments are cut out: the call fails, for want of a closing parenthesis or for what stands
behind the one that is found. -/
theorem matchingParen_of_splitTopLevel :
    (∀ sep text pieces i, splitTopLevel sep text = .ok pieces → text[i]? = some '(' →
      openQuote none (text.take i) = none →
        ∃ j, matchingParen text i = .ok j ∧ i < j ∧ text[j]? = some ')' ∧
          openQuote none (text.take j) = none ∧ ∀ sep',
            (∃ pieces, splitTopLevel sep' ((text.take j).drop (i + 1)) = .ok pieces) ∧
              ∃ pieces, splitTopLevel sep' (text.take i ++ text.drop (j + 1)) = .ok pieces) ∧
      ∀ line s, Within line s → '(' ∈ s →
        (openQuote none (s.takeWhile (· != '(')) = none →
          (∀ fault, callParts s = .error fault → ¬Unbalanced fault) ∧
            ∀ callee inner, callParts s = .ok (callee, inner) →
              ∀ fault, splitArguments inner = .error fault → ¬Unbalanced fault) ∧
        (openQuote none (s.takeWhile (· != '(')) ≠ none →
          callParts s = .error (.unmatched '(') ∨
            ∃ behind, callParts s = .error (.afterCall behind)) := by
  constructor
  · intro sep text pieces i hsplit hparen hquote
    have htext : Balanced text := (exists_splitTopLevel_iff sep text).mp ⟨pieces, hsplit⟩
    obtain ⟨hi, hc⟩ := List.getElem?_eq_some_iff.mp hparen
    obtain ⟨before, behind, hbefore, rfl, rfl⟩ : ∃ before behind, before = text.take i ∧
        text = before ++ '(' :: behind ∧ i = before.length := by
      refine ⟨text.take i, text.drop (i + 1), rfl, ?_, ?_⟩
      · rw [← hc, List.getElem_cons_drop, List.take_append_drop]
      · exact (List.length_take_of_le (Nat.le_of_lt hi)).symm
    rw [← hbefore] at hquote
    obtain ⟨inner, rest, rfl, hinner, hrest⟩ := htext.exists_pair hquote
    refine ⟨_, hinner.matchingParen_eq before rest, by omega, getElem?_closer .., ?_, fun sep' ↦ ?_⟩
    · calc
        _ = openQuote none (before ++ '(' :: inner) := by rw [take_closer]
        _ = openQuote none inner := by
          rw [openQuote_append, hquote, openQuote_cons]
          rfl
        _ = none := hinner.openQuote_eq
    · rw [exists_splitTopLevel_iff, exists_splitTopLevel_iff, take_closer, drop_opener, drop_closer,
        List.take_left]
      exact ⟨hinner, hrest⟩
  · intro line s hs hcall
    refine ⟨fun hquote ↦ ?_, callParts_of_quoted hs.balanced.openQuote_eq⟩
    have hcut := balanced_callParts hs.balanced hcall hquote
    constructor
    · intro fault hfault
      rw [hfault] at hcut
      exact hcut.fault
    · intro callee inner hparts fault hfault
      rw [hparts] at hcut
      have harguments := balanced_splitArguments hcut.value
      rw [hfault] at harguments
      exact harguments.fault

/-- A bracket of another kind and quoted parentheses inside the pair, a call in a call, and a quoted
parenthesis that is taken for the one of a call. -/
theorem matchingParen_nested :
    (∃ j, matchingParen "f([a,'('],{b})=(c)".toList 1 = .ok j ∧ 1 < j ∧
      "f([a,'('],{b})=(c)".toList[j]? = some ')' ∧
      openQuote none ("f([a,'('],{b})=(c)".toList.take j) = none ∧ ∀ sep,
        (∃ pieces, splitTopLevel sep (("f([a,'('],{b})=(c)".toList.take j).drop 2) = .ok pieces) ∧
          ∃ pieces, splitTopLevel sep ("f([a,'('],{b})=(c)".toList.take 1 ++
            "f([a,'('],{b})=(c)".toList.drop (j + 1)) = .ok pieces) ∧
      ((∀ fault, callParts "m.get(\"=(\")".toList = .error fault → ¬Unbalanced fault) ∧
        ∀ callee inner, callParts "m.get(\"=(\")".toList = .ok (callee, inner) →
          ∀ fault, splitArguments inner = .error fault → ¬Unbalanced fault) ∧
      (callParts "\"=(\"".toList = .error (.unmatched '(') ∨
        ∃ behind, callParts "\"=(\"".toList = .error (.afterCall behind)) := by
  have hpieces : splitTopLevel '=' "f([a,'('],{b})=(c)".toList =
      .ok ["f([a,'('],{b})".toList, "(c)".toList] := rfl
  have hassignment : assignment "x = sine(m.get(\"=(\"), 2)".toList =
      .ok (some "x", "sine(m.get(\"=(\"), 2)".toList) := rfl
  have houter : callParts "sine(m.get(\"=(\"), 2)".toList =
      .ok ("sine".toList, "m.get(\"=(\"), 2".toList) := rfl
  have harguments : splitArguments "m.get(\"=(\"), 2".toList =
      .ok ["m.get(\"=(\")".toList, ['2']] := rfl
  have hinner : callParts "m.get(\"=(\")".toList = .ok ("m.get".toList, "\"=(\"".toList) := rfl
  have hargument : splitArguments "\"=(\"".toList = .ok ["\"=(\"".toList] := rfl
  have hcall : Within "x = sine(m.get(\"=(\"), 2)".toList "m.get(\"=(\")".toList :=
    .argument (.whole hassignment) (by decide) houter harguments List.mem_cons_self
  have hquoted : Within "x = sine(m.get(\"=(\"), 2)".toList "\"=(\"".toList :=
    .argument hcall (by decide) hinner hargument List.mem_cons_self
  obtain ⟨hmatch, hcalls⟩ := matchingParen_of_splitTopLevel
  exact ⟨hmatch '=' _ _ 1 hpieces rfl rfl, (hcalls _ _ hcall (by decide)).1 rfl,
    (hcalls _ _ hquoted (by decide)).2 (by decide)⟩

/-- An argument with a quoted parenthesis is a call that fails for a bracket, and so does its line,
though the line can be split. -/
theorem exists_call_unmatched :
    (∃ pieces, splitTopLevel '=' "sine(\"(\", 1)".toList = .ok pieces) ∧
      (∃ s, Within "sine(\"(\", 1)".toList s ∧ '(' ∈ s ∧ callParts s = .error (.unmatched '(')) ∧
      ((Workspace.new .default .standard).execute "sine(\"(\", 1)".toList).1.mapError
          Fault.message =
        .error "Execution error on line 1 \"sine(\"(\", 1)\": Unmatched parentheses" := by
  have hassignment : assignment "sine(\"(\", 1)".toList =
      .ok (none, "sine(\"(\", 1)".toList) := rfl
  have hparts : callParts "sine(\"(\", 1)".toList = .ok ("sine".toList, "\"(\", 1".toList) := rfl
  have harguments : splitArguments "\"(\", 1".toList = .ok ["\"(\"".toList, ['1']] := rfl
  have hwithin : Within "sine(\"(\", 1)".toList "\"(\"".toList :=
    .argument (.whole hassignment) (by decide) hparts harguments List.mem_cons_self
  exact ⟨⟨_, rfl⟩, ⟨_, hwithin, by decide, rfl⟩, by decide +kernel⟩

end Expr

end WaveNotebook
