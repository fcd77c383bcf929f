import WaveNotebook.Proofs.Document.Scalar

/-!
# Tokens of a block of fields

The reader takes three tokens from every line of a block: the key, the colon and the value. The
first key of a block shows that it starts, and the next line that is not indented as much ends it.
Between the lines no bracket is open and no key is pending, and the keys that were found lie in
front of the tokens to come, so that the tokens of a line are added behind all others.
-/

namespace WaveNotebook.Document

namespace Lexer

variable {l l' next : Lexer}

/-! ## Tokens with the signs of keys -/

/-- The forms of the tokens in order. -/
def forms (l : Lexer) : List TokenForm :=
  l.allTokens.map (·.form)

/-- The keys that were found lie in front of the next token. -/
def Settled (l : Lexer) : Prop :=
  ∀ k ∈ l.found, k.place < l.tokens.length

theorem keySigns_of_forall {found : List FoundKey} {place : ℕ}
    (h : ∀ k ∈ found, k.place ≠ place) : keySigns found place = [] := by
  have hnone : found.find? (·.place == place) = none :=
    List.find?_eq_none.mpr fun k hk ↦ by simp [h k hk]
  unfold keySigns
  rw [hnone]

theorem keySigns_cons_of_ne {found : List FoundKey} {k : FoundKey} {place : ℕ}
    (h : k.place ≠ place) : keySigns (k :: found) place = keySigns found place := by
  unfold keySigns
  rw [List.find?_cons_of_neg (by simp [h])]

theorem keySigns_self (found : List FoundKey) (k : FoundKey) :
    (keySigns (k :: found) k.place).map (·.form) =
      (if k.opens then [.fieldsStart] else []) ++ [.key] := by
  unfold keySigns
  rw [List.find?_cons_of_pos (by simp)]
  dsimp only
  split <;> rfl

/-- Signs of keys behind the last token make no difference. -/
theorem allTokens_append {tokens more : List Token} {found : List FoundKey}
    (hl : l.tokens = more ++ tokens) (hfound : l.found = found) :
    l.allTokens = tokens.reverse.zipIdx.flatMap (fun t ↦ keySigns found t.2 ++ [t.1]) ++
      (more.reverse.zipIdx tokens.length).flatMap fun t ↦ keySigns found t.2 ++ [t.1] := by
  unfold allTokens
  rw [hl, hfound, List.reverse_append, List.zipIdx_append, List.flatMap_append,
    List.length_reverse, Nat.zero_add]

theorem forms_of_push (h : l.Settled) {t : Token} (htokens : next.tokens = t :: l.tokens)
    (hfound : next.found = l.found) : next.forms = l.forms ++ [t.form] := by
  have hsigns : keySigns l.found l.tokens.length = [] :=
    keySigns_of_forall fun k hk ↦ (h k hk).ne
  have hall := allTokens_append (show next.tokens = [t] ++ l.tokens from htokens) hfound
  unfold forms
  rw [hall, List.map_append]
  simp [hsigns, allTokens]

/-- A key and its colon, when the key was found at its place. -/
theorem forms_of_key (h : l.Settled) {key colon : Token} {m : Mark} {opens : Bool}
    (htokens : next.tokens = colon :: key :: l.tokens)
    (hfound : next.found = ⟨l.tokens.length, m, opens⟩ :: l.found) :
    next.forms = l.forms ++
      ((if opens then [.fieldsStart] else []) ++ [.key, key.form, colon.form]) := by
  let k : FoundKey := ⟨l.tokens.length, m, opens⟩
  have hbefore : ∀ t ∈ l.tokens.reverse.zipIdx,
      keySigns (k :: l.found) t.2 ++ [t.1] = keySigns l.found t.2 ++ [t.1] := fun t ht ↦ by
    have hplace : t.2 < l.tokens.length := by
      have hplace := (List.mem_zipIdx ht).2.1
      rwa [List.length_reverse, Nat.zero_add] at hplace
    rw [keySigns_cons_of_ne (k := k) hplace.ne']
  have hbehind : keySigns (k :: l.found) (l.tokens.length + 1) = [] := by
    refine keySigns_of_forall (List.forall_mem_cons.mpr ⟨(Nat.lt_succ_self _).ne, fun k hk ↦ ?_⟩)
    exact (Nat.lt_succ_of_lt (h k hk)).ne
  have hkey := keySigns_self l.found k
  have hall :=
    allTokens_append (show next.tokens = [colon, key] ++ l.tokens from htokens) hfound
  unfold forms
  rw [hall, List.map_append, List.flatMap_congr hbefore]
  change _ ++ ((keySigns (k :: l.found) l.tokens.length ++ [key]) ++
    ((keySigns (k :: l.found) (l.tokens.length + 1) ++ [colon]) ++ [])).map
      (fun t : Token ↦ t.form) = _
  rw [hbehind]
  simp only [List.map_append, List.append_assoc, List.map_cons, List.map_nil, List.append_nil,
    List.nil_append]
  rw [hkey]
  simp [allTokens, k]

/-! ## Single steps -/

/-- Between two tokens of a block: no bracket is open and no key is pending. -/
structure Calm (l : Lexer) : Prop where
  depth : l.depth = 0
  pending : l.pending = []
  settled : l.Settled

/-- A step starts at a token: behind gaps, and with no key to give up and no block to close. -/
structure Meets (l next : Lexer) : Prop where
  gaps : l.skipGaps (l.cursor.rest.length + 1) = next
  stale : next.dropStale = .ok next
  blocks : next.closeBlocks (next.mark.column + 1) = next

theorem dropStale_of_forall (h : ∀ p ∈ l.pending, (p.2.mark.line != l.mark.line ||
    decide (p.2.mark.index + 1024 < l.mark.index)) = false) : l.dropStale = .ok l := by
  have hfind : l.pending.find? (fun p ↦ (p.2.mark.line != l.mark.line ||
      decide (p.2.mark.index + 1024 < l.mark.index)) && p.2.required) = none :=
    List.find?_eq_none.mpr fun p hp ↦ by simp [h p hp]
  have hfilter : l.pending.filter (fun p ↦ !(p.2.mark.line != l.mark.line ||
      decide (p.2.mark.index + 1024 < l.mark.index))) = l.pending :=
    List.filter_eq_self.mpr fun p hp ↦ by rw [h p hp]; rfl
  unfold dropStale
  dsimp only
  rw [hfind, hfilter]

theorem dropStale_of_pending_nil (h : l.pending = []) : l.dropStale = .ok l :=
  dropStale_of_forall fun _ hp ↦ nomatch h ▸ hp

/-- A pending key on the same line is not given up if it is near. -/
theorem dropStale_of_near {d : ℕ} {k : PendingKey} (h : l.pending = [(d, k)])
    (hline : k.mark.line = l.mark.line) (hindex : l.mark.index ≤ k.mark.index + 1024) :
    l.dropStale = .ok l := by
  refine dropStale_of_forall fun p hp ↦ ?_
  obtain rfl := List.mem_singleton.mp (h ▸ hp)
  rw [hline, bne_self_eq_false, Bool.false_or]
  exact decide_eq_false (Nat.not_lt.mpr hindex)

theorem closeBlocks_of_le {margin : ℕ} (h : l.margin ≤ margin) : l.closeBlocks margin = l := by
  unfold closeBlocks
  split
  · rw [List.dropWhile_cons_of_neg (by simpa using h)]
    simp
  · rfl

theorem meets_of_pending_nil (hgaps : l.skipGaps (l.cursor.rest.length + 1) = next)
    (hpending : next.pending = []) (hmargin : next.margin ≤ next.mark.column + 1) :
    l.Meets next :=
  ⟨hgaps, dropStale_of_pending_nil hpending, closeBlocks_of_le hmargin⟩

/-- The characters that never start a plain scalar. -/
def markChars : List Char :=
  ['%', '[', '\x7b', ']', '\x7d', ',', '*', '&', '!', '|', '>', '\'', '"', '#', ' ', '\n']

theorem ne_of_startsPlain {c : Char} {next : Option Char} (h : startsPlain true c next = true) :
    ∀ x ∈ markChars, c ≠ x := by
  have key : markChars.all (fun c ↦
      (isGap c || "-?:,[]\x7b\x7d#&*!|>'\"%@\x60".toList.contains c) &&
        !(c == '-' || (c == '?' || c == ':'))) = true := by
    decide
  rintro x hx rfl
  have hmark := List.all_eq_true.mp key c hx
  simp only [Bool.and_eq_true, Bool.not_eq_true'] at hmark
  rw [startsPlain, hmark.1, Bool.true_and, hmark.2, Bool.and_false] at h
  exact Bool.false_ne_true h

/-- A dash, a question mark or a colon starts a plain scalar only in front of a visible
character. -/
theorem endsOr_of_startsPlain {c : Char} {next : Option Char} (h : startsPlain true c next = true)
    (hc : c ∈ ['-', '?', ':']) : endsOr isGap next = false := by
  have key : ['-', '?', ':'].all (fun c ↦
      isGap c || "-?:,[]\x7b\x7d#&*!|>'\"%@\x60".toList.contains c) = true := by
    decide
  rw [startsPlain, List.all_eq_true.mp key c hc, Bool.not_true, Bool.false_or,
    Bool.and_eq_true, Bool.not_eq_true'] at h
  exact h.1

theorem Meets.step_plain (h : l.Meets next) (hdepth : next.depth = 0) {c : Char} {r : List Char}
    (hrest : next.cursor.rest = c :: r) (hstart : startsPlain true c r.head? = true)
    (hplace : next.mark.column ≠ 0 ∨ c ≠ '-' ∧ c ≠ '.') : l.step = next.plain := by
  have hpeek : next.cursor.peek = some c := congrArg List.head? hrest
  have hnext : next.cursor.peekAt 1 = r.head? := Cursor.peekAt_one hrest
  have hblock : next.inBlock = true := beq_iff_eq.mpr hdepth
  unfold step
  rw [h.gaps, h.stale]
  simp only [bind, Except.bind, h.blocks, hpeek, hnext, hblock]
  have hc := ne_of_startsPlain hstart
  have hword := endsOr_of_startsPlain hstart
  have hends : ∀ x ∈ ['-', '?', ':'], ¬(c = x ∧ endsOr isGap r.head? = true) := by
    rintro x hx ⟨rfl, hends⟩
    rw [hword hx] at hends
    exact nomatch hends
  have hseparates : ∀ x ∈ ['-', '.'],
      ¬(c = x ∧ (next.mark.column == 0 && next.cursor.seesSeparator) = true) := by
    rintro x hx ⟨rfl, hseparates⟩
    obtain hplace | ⟨hdash, hpoint⟩ := hplace
    · rw [beq_false_of_ne hplace] at hseparates
      exact nomatch hseparates
    · exact (List.mem_pair.mp hx).elim hdash hpoint
  rw [Bool.not_true, Bool.or_false]
  rw [if_neg fun h ↦ hc '%' (by decide) h.1, if_neg (hseparates '-' (by decide)),
    if_neg (hseparates '.' (by decide)), if_neg (hc '[' (by decide)),
    if_neg (hc '\x7b' (by decide)), if_neg (hc ']' (by decide)), if_neg (hc '\x7d' (by decide)),
    if_neg (hc ',' (by decide)), if_neg (hends '-' (by decide)), if_neg (hends '?' (by decide)),
    if_neg (hends ':' (by decide)), if_neg (not_or.mpr ⟨hc '*' (by decide), hc '&' (by decide)⟩),
    if_neg (hc '!' (by decide)),
    if_neg fun h ↦ h.1.elim (hc '|' (by decide)) (hc '>' (by decide)),
    if_neg (not_or.mpr ⟨hc '\'' (by decide), hc '"' (by decide)⟩), if_pos hstart]

theorem Meets.step_value (h : l.Meets next) {r : List Char} (hrest : next.cursor.rest = ':' :: r)
    (hr : endsOr isGap r.head? = true) : l.step = next.value := by
  have hpeek : next.cursor.peek = some ':' := congrArg List.head? hrest
  have hnext : next.cursor.peekAt 1 = r.head? := Cursor.peekAt_one hrest
  unfold step
  rw [h.gaps, h.stale]
  simp only [bind, Except.bind, h.blocks, hpeek, hnext, hr]
  rfl

theorem Meets.step_quote (h : l.Meets next) {q : Char} (hq : IsQuote q) {r : List Char}
    (hrest : next.cursor.rest = q :: r) : l.step = next.content (atEnd (cutQuoted q)) := by
  have hpeek : next.cursor.peek = some q := congrArg List.head? hrest
  unfold step
  rw [h.gaps, h.stale]
  simp only [bind, Except.bind, h.blocks, hpeek]
  obtain rfl | rfl := hq <;> rfl

/-! ## What a step does -/

theorem run_succ (hstep : l.step = .ok next) {t : Token} {ts : List Token}
    (htokens : next.tokens = t :: ts) (hform : t.form ≠ .streamEnd)
    (hstale : next.dropStale = .ok next) (bound : ℕ) : run (bound + 1) l = run bound next := by
  have hhead : ¬next.tokens.head?.map (·.form) = some .streamEnd := by
    rw [htokens]
    exact fun h ↦ hform (Option.some.inj h)
  rw [run, hstep]
  dsimp only
  rw [if_neg hhead, hstale]

/-- What starts no gap and no comment. -/
def startsGap (c : Char) : Bool :=
  c == ' ' || c == '#' || isBreak c

section Gaps

variable {t : List Char} {m : Mark} (ht : Stops startsGap t)

include ht

theorem skipGaps_spaces (k : ℕ) (hl : l.cursor = ⟨List.replicate k ' ' ++ t, m⟩) (bound : ℕ) :
    l.skipGaps (bound + 1) = { l with cursor := ⟨t, m.behind (List.replicate k ' ')⟩ } := by
  have hgap : ∀ x, t.head? = some x → (x ≠ ' ' ∧ x ≠ '#') ∧ isBreak x = false := fun x hx ↦ by
    simpa [startsGap] using ht x hx
  have hspace : Stops (· == ' ') t := fun x hx ↦ beq_false_of_ne (hgap x hx).1.1
  have hsign : ¬t.head? = some '#' := fun h ↦ (hgap _ h).1.2 rfl
  have hbreak : Stops isBreak t := fun x hx ↦ (hgap x hx).2
  rw [skipGaps, hl, Cursor.skipWhile_spaces k rfl hspace]
  rw [show Cursor.peek ⟨t, _⟩ = t.head? from rfl, if_neg hsign, Cursor.takeBreak_of_stops hbreak]

theorem skipGaps_self (hl : l.cursor = ⟨t, m⟩) (bound : ℕ) : l.skipGaps (bound + 1) = l := by
  rw [skipGaps_spaces ht 0 hl]
  change { l with cursor := ⟨t, m⟩ } = l
  rw [← hl]

/-- The end of a line and the indentation of the next one. -/
theorem skipGaps_line (hblock : l.inBlock = true) (k : ℕ)
    (hl : l.cursor = ⟨'\n' :: (List.replicate k ' ' ++ t), m⟩) (bound : ℕ) :
    l.skipGaps (bound + 2) = { l with
      cursor := ⟨t, (Cursor.advance m '\n').behind (List.replicate k ' ')⟩
      keyAllowed := true } := by
  rw [skipGaps, hl, Cursor.skipWhile_of_stops (stops_cons_iff.mpr rfl)]
  rw [show Cursor.peek ⟨'\n' :: _, _⟩ = some '\n' from rfl, if_neg (by decide),
    Cursor.takeBreak_newline]
  dsimp only
  rw [skipGaps_spaces ht k rfl, hblock, Bool.or_true]

end Gaps

section Content

variable {cut : Cursor → Except Malformed (Token × Cursor × Bool)} {t : Token} {c : Cursor}
  {allowed : Bool}

/-- A token that cannot be a key. -/
theorem content_of_not_keyAllowed (hkey : l.keyAllowed = false)
    (hcut : cut l.cursor = .ok (t, c, allowed)) :
    l.content cut = .ok { l.push t with cursor := c, keyAllowed := allowed } := by
  have hkeep : l.keepKey = .ok l := by
    unfold keepKey
    rw [hkey]
    rfl
  unfold content
  rw [hkeep]
  simp only [bind, Except.bind, hcut]
  rfl

/-- A token that may be a key is kept as such. -/
theorem content_of_keyAllowed (hl : l.Calm) (hkey : l.keyAllowed = true)
    (hcut : cut l.cursor = .ok (t, c, allowed)) :
    ∃ required, l.content cut = .ok { l.push t with
      cursor := c, keyAllowed := allowed,
      pending := [(0, ⟨l.tokens.length, required, l.mark⟩)] } := by
  obtain ⟨cursor, tokens, depth, margin, margins, keyAllowed, pending, found⟩ := l
  obtain rfl : keyAllowed = true := hkey
  obtain rfl : depth = 0 := hl.depth
  obtain rfl : pending = [] := hl.pending
  let required := margin == cursor.mark.column + 1
  have hcut : cut cursor = .ok (t, c, allowed) := hcut
  have hkeep : keepKey ⟨cursor, tokens, 0, margin, margins, true, [], found⟩ =
      .ok ⟨cursor, tokens, 0, margin, margins, true,
        [(0, ⟨tokens.length, required, cursor.mark⟩)], found⟩ := rfl
  refine ⟨required, ?_⟩
  unfold content
  rw [hkeep]
  simp only [bind, Except.bind, hcut]
  rfl

end Content

/-- A plain scalar outside of brackets, and whether it ends with its line. -/
def plainToken (margin : ℕ) (c : Cursor) : Except Malformed (Token × Cursor × Bool) :=
  let run := cutPlain false margin c
  .ok (⟨.scalar run.text .plain, c.mark, run.stop⟩, run.cursor, run.broken)

theorem plain_eq (h : l.depth = 0) : l.plain = l.content (plainToken l.margin) := by
  have hblock : l.inBlock = true := beq_iff_eq.mpr h
  unfold plain
  rw [hblock]
  rfl

theorem openBlock_eq (l : Lexer) (column : ℕ) :
    l.openBlock column = (decide (l.margin < column + 1), { l with
      margin := max l.margin (column + 1)
      margins := if l.margin < column + 1 then l.margin :: l.margins else l.margins }) := by
  unfold openBlock
  split
  · rename_i h
    rw [decide_eq_true h, Nat.max_eq_right h.le]
  · rename_i h
    rw [decide_eq_false h, Nat.max_eq_left (Nat.not_lt.mp h)]

/-- A colon behind a pending key, which opens a block if it is indented deeper. -/
theorem value_of_pending {k : PendingKey} (hdepth : l.depth = 0) (hpending : l.pending = [(0, k)]) :
    l.value = .ok ({ l with
      margin := max l.margin (k.mark.column + 1)
      margins := if l.margin < k.mark.column + 1 then l.margin :: l.margins else l.margins
      pending := []
      found := ⟨k.place, k.mark, decide (l.margin < k.mark.column + 1)⟩ :: l.found
      keyAllowed := false }.pushSign .value 1) := by
  obtain ⟨cursor, tokens, depth, margin, margins, keyAllowed, pending, found⟩ := l
  obtain rfl : depth = 0 := hdepth
  obtain rfl : pending = [(0, k)] := hpending
  have hlookup : List.lookup 0 [(0, k)] = some k := rfl
  unfold value
  simp only [hlookup, inBlock, beq_self_eq_true, if_true, openBlock_eq]
  rfl

/-! ## Lines of a block -/

/-- So many steps lead from one state to another one and add tokens of some forms. -/
structure Leads (n : ℕ) (fs : List TokenForm) (l next : Lexer) : Prop where
  run_eq : ∀ bound, run (bound + n) l = run bound next
  forms_eq : next.forms = l.forms ++ fs
  calm : next.Calm

theorem Leads.trans {m n : ℕ} {fs gs : List TokenForm} {l₁ l₂ l₃ : Lexer} (h : Leads m fs l₁ l₂)
    (h' : Leads n gs l₂ l₃) : Leads (n + m) (fs ++ gs) l₁ l₃ where
  run_eq bound := by rw [← Nat.add_assoc, h.run_eq, h'.run_eq]
  forms_eq := by rw [h'.forms_eq, h.forms_eq, List.append_assoc]
  calm := h'.calm

/-- Behind gaps a line goes on at a column with a text. -/
def AtLine (l : Lexer) (u : List Char) (k : ℕ) : Prop :=
  ∃ m : Mark, m.column = k ∧
    l.skipGaps (l.cursor.rest.length + 1) = { l with cursor := ⟨u, m⟩, keyAllowed := true }

/-- The characters of the names of settings. -/
def keyChars : List Char :=
  "abcdefghijklmnopqrstuvwxyz_".toList

/-- A key that is written as it is, can be kept while it is pending and stands for itself. -/
structure IsKey (key : List Char) : Prop where
  ne_nil : key ≠ []
  subset : key ⊆ keyChars
  length_le : key.length ≤ 1024
  form_eq : formOf key = .text

theorem of_mem_keyChars {c : Char} (h : c ∈ keyChars) (next : Option Char) :
    (isSimple c = true ∧ c ≠ ' ' ∧ c ≠ ':') ∧ startsPlain true c next = true ∧
      c ≠ '-' ∧ c ≠ '.' := by
  have key : keyChars.all (fun c ↦ isSimple c && c != ' ' && c != ':' && c != '-' && c != '.' &&
      !(isGap c || "-?:,[]\x7b\x7d#&*!|>'\"%@\x60".toList.contains c)) = true := by
    decide
  have h := List.all_eq_true.mp key c h
  simp only [Bool.and_eq_true, bne_iff_ne] at h
  obtain ⟨⟨⟨⟨⟨hsimple, hspace⟩, hcolon⟩, hdash⟩, hpoint⟩, hstart⟩ := h
  refine ⟨⟨hsimple, hspace, hcolon⟩, ?_, hdash, hpoint⟩
  unfold startsPlain
  rw [hstart, Bool.true_or]

theorem IsKey.simple {key : List Char} (h : IsKey key) : Simple key :=
  fun _ hc ↦ (of_mem_keyChars (h.subset hc) none).1.1

theorem step_key {key t : List Char} {m : Mark} (h : l.Meets next) (hnext : next.Calm)
    (hallowed : next.keyAllowed = true) (hcursor : next.cursor = ⟨key ++ ':' :: t, m⟩)
    (hkey : IsKey key) (ht : Stops (fun x ↦ !isGap x) t) :
    ∃ required, l.step = .ok { next.push ⟨.scalar key .plain, m, m.behind key⟩ with
      cursor := ⟨':' :: t, m.behind key⟩
      keyAllowed := false
      pending := [(0, ⟨next.tokens.length, required, m⟩)] } := by
  have hvisible : ∀ c ∈ key, isSimple c = true ∧ c ≠ ' ' ∧ c ≠ ':' :=
    fun c hc ↦ (of_mem_keyChars (hkey.subset hc) none).1
  have hcut := cutPlain_key hkey.ne_nil hvisible ht next.margin m
  obtain ⟨c, r, rfl⟩ := List.exists_cons_of_ne_nil hkey.ne_nil
  have hrest : next.cursor.rest = c :: (r ++ ':' :: t) := congrArg Cursor.rest hcursor
  obtain ⟨-, hstart, hplace⟩ :=
    of_mem_keyChars (hkey.subset List.mem_cons_self) (r ++ ':' :: t).head?
  have hmark : next.mark = m := congrArg Cursor.mark hcursor
  have htoken : plainToken next.margin next.cursor =
      .ok (⟨.scalar (c :: r) .plain, m, m.behind (c :: r)⟩,
        ⟨':' :: t, m.behind (c :: r)⟩, false) := by
    unfold plainToken
    rw [hcursor, hcut]
  have hcontent := content_of_keyAllowed hnext hallowed htoken
  rw [h.step_plain hnext.depth hrest hstart (.inr hplace), plain_eq hnext.depth]
  rwa [hmark] at hcontent

/-- Right behind a key this key is still pending. -/
theorem dropStale_behind_key {key : List Char} {m : Mark} {d place : ℕ} {required : Bool}
    (hkey : IsKey key) (hpending : l.pending = [(d, ⟨place, required, m⟩)])
    (hmark : l.mark = m.behind key) : l.dropStale = .ok l := by
  have hplace := m.behind_simple hkey.simple
  have hlength := hkey.length_le
  refine dropStale_of_near hpending ?_ ?_
  · rw [hmark, hplace]
  · rw [hmark, hplace]
    dsimp only
    omega

/-- The colon behind a key. -/
theorem step_colon {t : List Char} {m : Mark} {k : PendingKey} (hdepth : l.depth = 0)
    (hcursor : l.cursor = ⟨':' :: t, m⟩) (ht : Stops (fun x ↦ !isGap x) t)
    (hpending : l.pending = [(0, k)]) (hstale : l.dropStale = .ok l)
    (hmargin : l.margin ≤ m.column + 1) :
    l.step = .ok { l with
      margin := max l.margin (k.mark.column + 1)
      margins := if l.margin < k.mark.column + 1 then l.margin :: l.margins else l.margins
      pending := []
      found := ⟨k.place, k.mark, decide (l.margin < k.mark.column + 1)⟩ :: l.found
      keyAllowed := false
      cursor := ⟨t, Cursor.advance m ':'⟩
      tokens := ⟨.value, m, Cursor.advance m ':'⟩ :: l.tokens } := by
  have hmark : l.mark = m := congrArg Cursor.mark hcursor
  have hmeets : l.Meets l := ⟨skipGaps_self (stops_cons_iff.mpr rfl) hcursor _, hstale,
    closeBlocks_of_le (hmark ▸ hmargin)⟩
  have hskip : l.cursor.skip 1 = ⟨t, Cursor.advance m ':'⟩ := by
    rw [hcursor]
    rfl
  rw [hmeets.step_value (congrArg Cursor.rest hcursor) (endsOr_of_stops ht),
    value_of_pending hdepth hpending]
  unfold pushSign
  simp only [hskip, ← hmark]
  rfl

/-- A key and its colon. -/
theorem exists_leads_key {key t : List Char} {k : ℕ} (hl : l.Calm)
    (hline : l.AtLine (key ++ ':' :: t) k) (hkey : IsKey key)
    (ht : Stops (fun x ↦ !isGap x) t) (hmargin : l.margin ≤ k + 1) :
    ∃ next, Leads 2 ((if l.margin < k + 1 then [.fieldsStart] else []) ++
        [.key, .scalar key .plain, .value]) l next ∧
      next.cursor.rest = t ∧ next.mark.column = k + key.length + 1 ∧ next.keyAllowed = false ∧
      next.margin = k + 1 ∧
      next.margins = if l.margin < k + 1 then l.margin :: l.margins else l.margins := by
  obtain ⟨m, rfl, hgaps⟩ := hline
  have hmeets := meets_of_pending_nil hgaps hl.pending hmargin
  have hplace := m.behind_simple hkey.simple
  obtain ⟨required, hstep⟩ :=
    step_key hmeets ⟨hl.depth, hl.pending, hl.settled⟩ rfl rfl hkey ht
  let k : PendingKey := ⟨l.tokens.length, required, m⟩
  let l₁ : Lexer := { l with
    tokens := ⟨.scalar key .plain, m, m.behind key⟩ :: l.tokens
    cursor := ⟨':' :: t, m.behind key⟩
    keyAllowed := false
    pending := [(0, k)] }
  have hstale : l₁.dropStale = .ok l₁ := dropStale_behind_key hkey rfl rfl
  have hcolumn : l₁.margin ≤ (m.behind key).column + 1 := by
    change l.margin ≤ _
    rw [hplace]
    dsimp only
    omega
  have hcolon := step_colon (l := l₁) hl.depth rfl ht rfl hstale hcolumn
  have hrun := fun bound ↦ (run_succ hstep rfl nofun hstale (bound + 1)).trans
    (run_succ hcolon rfl nofun (dropStale_of_pending_nil rfl) bound)
  refine ⟨_, ⟨hrun, ?_, ⟨hl.depth, rfl, ?_⟩⟩, rfl, ?_, rfl, Nat.max_eq_right hmargin, rfl⟩
  · rw [forms_of_key hl.settled rfl rfl]
    simp only [decide_eq_true_eq]
    rfl
  · refine List.forall_mem_cons.mpr ⟨?_, fun k hk ↦ ?_⟩
    · change l.tokens.length < l.tokens.length + 1 + 1
      omega
    · exact Nat.lt_add_right 2 (hl.settled k hk)
  · change (Cursor.advance (m.behind key) ':').column = _
    rw [Cursor.advance_of_isSimple _ (by decide), hplace]

/-- Behind the first character of a plain scalar its text goes on. -/
theorem tail_of_startsPlain {c : Char} {w s : List Char} {indent : ℕ}
    (hstart : startsPlain true c s.head? = true) (h : PlainText indent (c :: w) (c :: s)) :
    isSimple c = true ∧ c ≠ ' ' ∧ PlainText indent w s := by
  have hspace := ne_of_startsPlain hstart ' ' (by decide)
  cases h with
  | char hsimple _ _ h => exact ⟨hsimple, hspace, h⟩
  | space => exact absurd rfl hspace

/-- The reader sees a gap behind a character of a plain scalar where its text has one. -/
theorem endsOr_head? {w s t : List Char} {indent : ℕ} (h : PlainText indent w s)
    (ht : endsOr isGap t.head? = true) : endsOr isGap (w ++ t).head? = endsOr isGap s.head? := by
  cases h <;> first | exact ht | rfl

theorem step_plainText {c : Char} {w s t : List Char} {indent : ℕ} (h : l.Meets next)
    (hdepth : next.depth = 0) (hallowed : next.keyAllowed = false)
    (hrest : next.cursor.rest = c :: (w ++ t)) (ht : endsOr isGap t.head? = true)
    (hplace : next.mark.column ≠ 0) (hstart : startsPlain true c s.head? = true)
    (hplain : PlainText indent (c :: w) (c :: s)) {run : PlainRun}
    (hcut : cutPlain false next.margin next.cursor = run) :
    l.step = .ok { next.push ⟨.scalar run.text .plain, next.mark, run.stop⟩ with
      cursor := run.cursor, keyAllowed := run.broken } := by
  have hnext := endsOr_head? (tail_of_startsPlain hstart hplain).2.2 ht
  have hstart' : startsPlain true c (w ++ t).head? = true := by
    unfold startsPlain at hstart ⊢
    rwa [hnext]
  rw [h.step_plain hdepth hrest hstart' (.inl hplace), plain_eq hdepth]
  refine content_of_not_keyAllowed hallowed ?_
  unfold plainToken
  rw [hcut]
  rfl

theorem step_quotedText {q : Char} {r : List Char} {t : Token} {c : Cursor} (h : l.Meets next)
    (hallowed : next.keyAllowed = false) (hq : IsQuote q) (hrest : next.cursor.rest = q :: r)
    (hcut : cutQuoted q next.cursor = .ok (t, c)) :
    l.step = .ok { next.push t with cursor := c, keyAllowed := false } := by
  rw [h.step_quote hq hrest]
  refine content_of_not_keyAllowed hallowed ?_
  unfold atEnd
  rw [hcut]
  rfl

theorem stops_of_keyChars {p : Char → Bool} {u : List Char}
    (hu : Stops (fun c ↦ !keyChars.contains c) u) (hp : keyChars.all (fun c ↦ !p c) = true) :
    Stops p u := fun x hx ↦ by
  have hmem : x ∈ keyChars := by simpa using hu x hx
  simpa using List.all_eq_true.mp hp x hmem

/-- A step that adds one token which is no key. -/
theorem leads_one {t : Token} (hl : l.Calm) (hstep : l.step = .ok next)
    (htokens : next.tokens = t :: l.tokens) (hform : t.form ≠ .streamEnd)
    (hfound : next.found = l.found) (hdepth : next.depth = 0) (hpending : next.pending = []) :
    Leads 1 [t.form] l next where
  run_eq := run_succ hstep htokens hform (dropStale_of_pending_nil hpending)
  forms_eq := forms_of_push hl.settled htokens hfound
  calm := ⟨hdepth, hpending, fun k hk ↦ by
    rw [hfound] at hk
    rw [htokens]
    exact Nat.lt_succ_of_lt (hl.settled k hk)⟩

section Line

variable {u : List Char} {m : Mark} {k : ℕ} (hu : Stops startsGap u)

include hu

theorem atLine_self (hcursor : l.cursor = ⟨u, m⟩) (hm : m.column = k)
    (hallowed : l.keyAllowed = true) : l.AtLine u k := by
  refine ⟨m, hm, (skipGaps_self hu hcursor _).trans ?_⟩
  rw [← hcursor, ← hallowed]

theorem atLine_behind (hdepth : l.depth = 0)
    (hcursor : l.cursor = ⟨'\n' :: (List.replicate k ' ' ++ u), m⟩) : l.AtLine u k := by
  have hbound : l.cursor.rest.length + 1 = (List.replicate k ' ' ++ u).length + 2 := by
    rw [hcursor]
    rfl
  refine ⟨(Cursor.advance m '\n').behind (List.replicate k ' '), ?_, ?_⟩
  · rw [Mark.column_behind_simple _ (simple_spaces k), List.length_replicate]
    exact Nat.zero_add k
  · rw [hbound]
    exact skipGaps_line hu (beq_iff_eq.mpr hdepth) k hcursor _

end Line

/-- Behind a space the reader stops where no gap goes on. -/
theorem meets_behind_space {t : List Char} (hl : l.Calm) (hrest : l.cursor.rest = ' ' :: t)
    (hcolumn : l.margin ≤ l.mark.column) (ht : Stops startsGap t) :
    l.Meets { l with cursor := ⟨t, Cursor.advance l.mark ' '⟩ } := by
  have hcursor : l.cursor = ⟨List.replicate 1 ' ' ++ t, l.mark⟩ := by
    change _ = (⟨' ' :: t, l.cursor.mark⟩ : Cursor)
    rw [← hrest]
  refine meets_of_pending_nil (skipGaps_spaces ht 1 hcursor _) hl.pending ?_
  change l.margin ≤ (Cursor.advance l.mark ' ').column + 1
  rw [Cursor.advance_of_isSimple l.mark (by decide)]
  dsimp only
  omega

/-- A value and the end of its line. -/
theorem exists_leads_value {w u : List Char} {v : List Char × ScalarStyle} {indent k : ℕ}
    (hl : l.Calm) (hallowed : l.keyAllowed = false)
    (hrest : l.cursor.rest = ' ' :: (w ++ '\n' :: (List.replicate k ' ' ++ u)))
    (hw : WrittenScalar indent w v) (hindent : l.margin ≤ indent) (hk : k < l.margin)
    (hcolumn : l.margin ≤ l.mark.column) (hu : Stops (fun c ↦ !keyChars.contains c) u) :
    ∃ next, Leads 1 [.scalar v.1 v.2] l next ∧ next.AtLine u k ∧ next.margin = l.margin ∧
      next.margins = l.margins := by
  let m := Cursor.advance l.mark ' '
  let t := '\n' :: (List.replicate k ' ' ++ u)
  have hm : m.column = l.mark.column + 1 :=
    congrArg Mark.column (Cursor.advance_of_isSimple l.mark (by decide))
  have hgap : Stops startsGap u := stops_of_keyChars hu (by decide)
  have hmeets := meets_behind_space hl hrest hcolumn
  cases hw with
  | @plain c w s hstart hplain =>
    obtain ⟨hsimple, hspace, -⟩ := tail_of_startsPlain hstart hplain
    have hgapless := isGap_of_isSimple hsimple hspace
    have hstarts : startsGap c = false := by
      unfold startsGap
      rw [beq_false_of_ne hspace, beq_false_of_ne (ne_of_startsPlain hstart '#' (by decide)),
        isBreak_of_not_isGap hgapless]
      rfl
    obtain ⟨stop, place, hplace, hcut⟩ := hplain.exists_cutPlain (k := k)
      (m := m) (u := u) hindent (List.cons_ne_nil _ _) (stops_cons_iff.mpr hgapless) (by omega) hk
      (stops_of_keyChars hu (by decide)) (.inr (stops_of_keyChars hu (by decide)))
    have hstep := step_plainText (hmeets (stops_cons_iff.mpr hstarts)) hl.depth hallowed rfl
      (t := t) rfl (show m.column ≠ 0 by omega) hstart hplain hcut
    exact ⟨_, leads_one hl hstep rfl nofun rfl hl.depth hl.pending,
      atLine_self hgap rfl hplace rfl, rfl, rfl⟩
  | @quoted q w s hq hquoted =>
    have hstarts : startsGap q = false := by
      obtain rfl | rfl := hq <;> decide
    obtain ⟨stop, hcut⟩ := hquoted.exists_cutQuoted hq (t := t) (stops_cons_iff.mpr rfl) m
    have htext : q :: (w ++ [q]) ++ t = q :: (w ++ q :: t) := by simp
    rw [← htext] at hcut
    have hstep := step_quotedText (hmeets (by rw [htext]; exact stops_cons_iff.mpr hstarts))
      hallowed hq htext hcut
    exact ⟨_, leads_one hl hstep rfl nofun rfl hl.depth hl.pending,
      atLine_behind hgap hl.depth rfl, rfl, rfl⟩

end Lexer

end WaveNotebook.Document
