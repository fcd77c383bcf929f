import WaveNotebook.Proofs.Literal.Lexeme

/-!
# The reader and the grammar

The reader accepts exactly the tokens of a value, and gives that value. Each state stands for what
it has consumed: the open lists and the open record as far as they have been read, and behind them
a complete value, a key, or nothing. One step keeps this, so a reader that comes to its end has
consumed a value. The other way round, the reader goes through the tokens of a value in whatever
frames it is.
-/

namespace WaveNotebook.Literal

/-! ## States and tokens -/

theorem Lexeme.isMark_iff {l : Lexeme} {c : Char} : l.isMark c = true ↔ l.token = .mark c := by
  unfold isMark
  split
  · rename_i d hd
    rw [hd, beq_iff_eq, Token.mark.injEq, eq_comm]
  · rename_i hother
    exact ⟨fun h ↦ (nomatch h), fun h ↦ (hother c h).elim⟩

namespace State

/-- The state after a token, if the token is not refused. -/
def next? (s : State) (t : Token) : Option State :=
  (s.step ⟨0, ' ', t⟩).toOption

/-- The place and the first character of a token matter to messages alone. -/
theorem toOption_step (s : State) (l : Lexeme) : (s.step l).toOption = s.next? l.token := by
  have hvalue : ∀ frames, (beginValue frames l).toOption =
      (beginValue frames ⟨0, ' ', l.token⟩).toOption := by
    intro frames
    unfold beginValue
    dsimp only
    split <;> try rfl
    split <;> try rfl
    split <;> rfl
  have hkey : ∀ fields, beginKey fields l = beginKey fields ⟨0, ' ', l.token⟩ := fun _ ↦ rfl
  have hmark : ∀ c, l.isMark c = (⟨0, ' ', l.token⟩ : Lexeme).isMark c := fun _ ↦ rfl
  unfold next? step
  split
  · exact hvalue _
  · rw [hmark]
    split
    · rfl
    · exact hvalue _
  · rfl
  all_goals
    simp only [hmark, hkey]
    repeat' split
    all_goals rfl

def after? (s : State) (tokens : List Token) : Option State :=
  tokens.foldlM next? s

variable {s s' : State} {t : Token} {tokens tokens' : List Token} {d : Datum}

theorem after?_cons : s.after? (t :: tokens) = (s.next? t).bind (·.after? tokens) :=
  rfl

theorem after?_append (h : s.after? tokens = some s') :
    s.after? (tokens ++ tokens') = s'.after? tokens' := by
  unfold after? at *
  rw [List.foldlM_append, h]
  rfl

theorem finish_eq_ok_iff : s.finish = .ok d ↔ s = .after d [] := by
  constructor
  · intro h
    unfold finish at h
    split at h <;> cases h
    rfl
  · rintro rfl
    rfl

/-- A run succeeds if no token is refused and the text ends behind a complete value. -/
theorem run_eq_ok_iff {stop : Nat} {ls : List Lexeme} :
    s.run stop ls = .ok d ↔ s.after? (ls.map (·.token)) = some (.after d []) := by
  induction ls generalizing s with
  | nil =>
    have hfinish : s.run stop [] = .ok d ↔ s.finish = .ok d := by
      unfold run
      cases s.finish with
      | ok d' =>
        constructor <;> rintro ⟨⟩ <;> rfl
      | error fault => exact ⟨fun h ↦ (nomatch h), fun h ↦ (nomatch h)⟩
    rw [hfinish, finish_eq_ok_iff]
    exact ⟨congrArg some, Option.some.inj⟩
  | cons l ls ih =>
    rw [List.map_cons, after?_cons, ← toOption_step, run]
    cases s.step l with
    | ok s' => exact ih
    | error fault => exact ⟨fun h ↦ (nomatch h), fun h ↦ (nomatch h)⟩

/-- A fault shows at a token or at the end of the text. -/
theorem position_of_run_error {stop : Nat} {ls : List Lexeme} {e : LiteralError}
    (h : s.run stop ls = .error e) : e.position = stop ∨ ∃ l ∈ ls, e.position = l.position := by
  induction ls generalizing s with
  | nil =>
    unfold run at h
    cases hfinish : s.finish with
    | ok d => rw [hfinish] at h; cases h
    | error fault =>
      rw [hfinish] at h
      cases h
      exact .inl rfl
  | cons l ls ih =>
    rw [run] at h
    cases hstep : s.step l with
    | ok s' =>
      rw [hstep] at h
      exact (ih h).imp_right fun ⟨l', hl', hposition⟩ ↦
        ⟨l', List.mem_cons_of_mem _ hl', hposition⟩
    | error fault =>
      rw [hstep] at h
      cases h
      exact .inr ⟨l, List.mem_cons_self, rfl⟩

end State

/-! ## Values are accepted -/

namespace State

variable {t : Token} {tokens : List Token} {s s' : State} {frames frames' : List Frame}
  {d : Datum} {fields : Record} {key : String}

/-- A state that takes each token that another one takes, and goes on as that one does, completes
the same values. -/
theorem after?_of_next? (hnext : ∀ t u, s.next? t = some u → s'.next? t = some u)
    (h : s.after? tokens = some (.after d frames)) (hs : s ≠ .after d frames) :
    s'.after? tokens = some (.after d frames) := by
  cases tokens with
  | nil => exact absurd (Option.some.inj h) hs
  | cons t tokens =>
    rw [after?_cons] at h ⊢
    obtain ⟨u, hu, hrest⟩ := Option.bind_eq_some_iff.mp h
    rw [hnext t u hu, Option.bind_some]
    exact hrest

/-- The first item of a list is read like any other one. -/
theorem item_after? (h : (value (.list [] :: frames)).after? tokens = some (.after d frames')) :
    (item frames).after? tokens = some (.after d frames') := by
  refine after?_of_next? (fun t u hu ↦ ?_) h State.noConfusion
  unfold next? step at hu ⊢
  dsimp only at hu ⊢
  split
  · rename_i hclose
    obtain rfl : t = .mark ']' := Lexeme.isMark_iff.mp hclose
    cases hu
  · exact hu

/-- The first key of a record is read like any other one. -/
theorem firstKey_after? (h : (State.key []).after? tokens = some (.after d frames)) :
    firstKey.after? tokens = some (.after d frames) := by
  refine after?_of_next? (fun t u hu ↦ ?_) h State.noConfusion
  unfold next? step at hu ⊢
  dsimp only at hu ⊢
  split
  · rename_i hclose
    obtain rfl : t = .mark '}' := Lexeme.isMark_iff.mp hclose
    cases hu
  · exact hu

/-- A key and a colon lead to the value of the field. -/
theorem key_after? (ht : Key t key) :
    (State.key fields).after? (t :: .mark ':' :: tokens) =
      (value [.record fields key]).after? tokens := by
  cases ht <;> rfl

end State

mutual

theorem Value.after? {outer : Bool} {tokens : List Token} {d : Datum} :
    Value outer tokens d → ∀ {frames : List Frame}, frames.isEmpty = outer →
      (State.value frames).after? tokens = some (.after d frames)
  | .number _, _, _ => rfl
  | .text _, _, _ => rfl
  | .true, _, _ => rfl
  | .false, _, _ => rfl
  | .emptyList, _, _ => rfl
  | .list h, frames, _ => by
    obtain ⟨init, d, rfl, hinit⟩ := h.after? frames
    change (State.item frames).after? _ = _
    rw [State.after?_append hinit]
    rfl
  | .emptyRecord, _, hframes => by
    rw [List.isEmpty_iff.mp hframes]
    rfl
  | .record h, _, hframes => by
    obtain ⟨init, key, d, rfl, hinit⟩ := h.after?
    rw [List.isEmpty_iff.mp hframes]
    change State.firstKey.after? _ = _
    rw [State.after?_append (State.firstKey_after? hinit), Record.ofPairs_concat]
    rfl

/-- Behind its last item, a list is open with the items before. -/
theorem Items.after? {tokens : List Token} {items : List Datum} :
    Items tokens items → ∀ frames : List Frame, ∃ init d, items = init ++ [d] ∧
      (State.item frames).after? tokens = some (.after d (.list init :: frames))
  | .one h, _ => ⟨[], _, rfl, State.item_after? (h.after? rfl)⟩
  | .more hitems h, frames => by
    obtain ⟨init, d, rfl, hinit⟩ := hitems.after? frames
    refine ⟨init ++ [d], _, rfl, ?_⟩
    rw [State.after?_append hinit]
    exact h.after? rfl

theorem Pairs.after? {tokens : List Token} {pairs : List (String × Datum)} :
    Pairs tokens pairs → ∃ init key d, pairs = init ++ [(key, d)] ∧
      (State.key []).after? tokens = some (.after d [.record (Record.ofPairs init) key])
  | .one hkey h => by
    refine ⟨[], _, _, rfl, ?_⟩
    rw [State.key_after? hkey]
    exact h.after? rfl
  | .more hpairs hkey h => by
    obtain ⟨init, key, d, rfl, hinit⟩ := hpairs.after?
    refine ⟨init ++ [(key, d)], _, _, rfl, ?_⟩
    rw [State.after?_append hinit]
    change (State.key (Record.put _ _ _)).after? _ = _
    rw [State.key_after? hkey, Record.ofPairs_concat]
    exact h.after? rfl

end

/-! ## What is accepted is a value -/

/-- The tokens of the open record, up to a place where a key must come next. -/
def BeforeKey (fields : Record) (tokens : List Token) : Prop :=
  (fields = [] ∧ tokens = [.mark '{']) ∨ ∃ inner pairs, Pairs inner pairs ∧
    fields = Record.ofPairs pairs ∧ tokens = .mark '{' :: (inner ++ [.mark ','])

/-- The tokens that have opened frames, up to a place where a value must come next. -/
inductive Opens : List Frame → List Token → Prop
  | outermost : Opens [] []
  | firstItem {frames tokens} (h : Opens frames tokens) :
    Opens (.list [] :: frames) (tokens ++ [.mark '['])
  | item {frames tokens inner items} (h : Opens frames tokens) (hitems : Items inner items) :
    Opens (.list items :: frames) (tokens ++ .mark '[' :: (inner ++ [.mark ',']))
  | field {fields tokens t key} (h : BeforeKey fields tokens) (hkey : Key t key) :
    Opens [.record fields key] (tokens ++ [t, .mark ':'])

/-- The tokens that a reader has consumed on its way to a state. -/
def State.Consumed : State → List Token → Prop
  | value frames, tokens => Opens frames tokens
  | item frames, tokens => ∃ before, Opens frames before ∧ tokens = before ++ [.mark '[']
  | after d frames, tokens => ∃ before inner, Opens frames before ∧
    Value frames.isEmpty inner d ∧ tokens = before ++ inner
  | firstKey, tokens => tokens = [.mark '{']
  | key fields, tokens => BeforeKey fields tokens
  | colon fields name, tokens => ∃ before t, BeforeKey fields before ∧ Key t name ∧
    tokens = before ++ [t]

section

variable {l : Lexeme} {tokens : List Token} {s : State} {frames : List Frame} {fields : Record}

theorem Opens.beginValue (h : Opens frames tokens) (hs : beginValue frames l = .ok s) :
    s.Consumed (tokens ++ [l.token]) := by
  unfold Literal.beginValue at hs
  split at hs
  · rename_i n hn
    cases hs
    exact ⟨tokens, _, h, .number n, by rw [hn]⟩
  · rename_i q hq
    cases hs
    exact ⟨tokens, _, h, .text q, by rw [hq]⟩
  · cases hs
  · rename_i w hw
    split at hs
    · rename_i htrue
      cases hs
      refine ⟨tokens, _, h, .true, ?_⟩
      rw [hw, ← htrue, String.toList_ofList]
    · split at hs
      · rename_i hfalse
        cases hs
        refine ⟨tokens, _, h, .false, ?_⟩
        rw [hw, ← hfalse, String.toList_ofList]
      · cases hs
  · rename_i hmark
    cases hs
    exact ⟨tokens, h, by rw [hmark]⟩
  · rename_i hmark
    split at hs
    · rename_i hframes
      cases hs
      obtain rfl := List.isEmpty_iff.mp hframes
      cases h
      change _ = _
      rw [hmark, List.nil_append]
    · cases hs
  · cases hs

theorem BeforeKey.beginKey (h : BeforeKey fields tokens) (hs : beginKey fields l = .ok s) :
    s.Consumed (tokens ++ [l.token]) := by
  unfold Literal.beginKey at hs
  split at hs
  · rename_i q hq
    cases hs
    exact ⟨tokens, _, h, .quoted q, by rw [hq]⟩
  · rename_i w hw
    cases hs
    exact ⟨tokens, _, h, .word w, by rw [hw]⟩
  · cases hs
  · cases hs

/-- A complete value behind the items of a list is one more item. -/
theorem Opens.list_cases {items : List Datum} (h : Opens (.list items :: frames) tokens) {d : Datum}
    {inner : List Token} (hd : Value false inner d) :
    ∃ before all, Opens frames before ∧ Items all (items ++ [d]) ∧
      tokens ++ inner = before ++ .mark '[' :: all := by
  cases h with
  | @firstItem _ before h => exact ⟨before, inner, h, .one hd, by simp⟩
  | @item _ before inner' _ h hitems => exact ⟨before, _, h, .more hitems hd, by simp⟩

/-- A complete value behind a key and a colon is one more field. -/
theorem Opens.record_cases {key : String} (h : Opens (.record fields key :: frames) tokens)
    {d : Datum} {inner : List Token} (hd : Value false inner d) :
    frames = [] ∧ ∃ all pairs, Pairs all pairs ∧ Record.put fields key d = Record.ofPairs pairs ∧
      tokens ++ inner = .mark '{' :: all := by
  cases h with
  | field h hkey =>
    refine ⟨rfl, ?_⟩
    obtain ⟨rfl, rfl⟩ | ⟨all, pairs, hpairs, rfl, rfl⟩ := h
    · exact ⟨_, _, .one hkey hd, (Record.ofPairs_concat [] ..).symm, by simp⟩
    · exact ⟨_, _, .more hpairs hkey hd, (Record.ofPairs_concat ..).symm, by simp⟩

theorem State.Consumed.step (h : s.Consumed tokens) {s' : State} (hs : s.step l = .ok s') :
    s'.Consumed (tokens ++ [l.token]) := by
  unfold State.step at hs
  split at hs
  case h_1 frames => exact Opens.beginValue h hs
  case h_2 frames =>
    obtain ⟨before, hbefore, rfl⟩ := h
    split at hs
    · rename_i hclose
      cases hs
      rw [Lexeme.isMark_iff.mp hclose]
      exact ⟨before, _, hbefore, .emptyList, by simp⟩
    · exact hbefore.firstItem.beginValue hs
  case h_3 => cases hs
  case h_4 d items frames =>
    obtain ⟨before, inner, hbefore, hd, rfl⟩ := h
    obtain ⟨outside, all, hopens, hitems, heq⟩ := hbefore.list_cases hd
    rw [heq]
    split at hs
    · rename_i hcomma
      cases hs
      rw [Lexeme.isMark_iff.mp hcomma, List.append_assoc]
      exact hopens.item hitems
    · split at hs
      · rename_i hclose
        cases hs
        rw [Lexeme.isMark_iff.mp hclose, List.append_assoc]
        exact ⟨outside, _, hopens, .list hitems, rfl⟩
      · cases hs
  case h_5 d fields key frames =>
    obtain ⟨before, inner, hbefore, hd, rfl⟩ := h
    obtain ⟨rfl, all, pairs, hpairs, hput, heq⟩ := hbefore.record_cases hd
    rw [heq]
    rw [hput] at hs
    split at hs
    · rename_i hcomma
      cases hs
      rw [Lexeme.isMark_iff.mp hcomma]
      exact .inr ⟨all, pairs, hpairs, rfl, rfl⟩
    · split at hs
      · rename_i hclose
        cases hs
        rw [Lexeme.isMark_iff.mp hclose]
        exact ⟨[], _, .outermost, .record hpairs, rfl⟩
      · cases hs
  case h_6 =>
    obtain rfl : tokens = [.mark '{'] := h
    split at hs
    · rename_i hclose
      cases hs
      rw [Lexeme.isMark_iff.mp hclose]
      exact ⟨[], _, .outermost, .emptyRecord, rfl⟩
    · exact BeforeKey.beginKey (.inl ⟨rfl, rfl⟩) hs
  case h_7 fields => exact BeforeKey.beginKey h hs
  case h_8 fields key =>
    obtain ⟨before, t, hbefore, hkey, rfl⟩ := h
    split at hs
    · rename_i hcolon
      cases hs
      rw [Lexeme.isMark_iff.mp hcolon, List.append_assoc]
      exact .field hbefore hkey
    · cases hs

end

theorem State.Consumed.run {s : State} {tokens : List Token} (h : s.Consumed tokens) {stop : Nat}
    {ls : List Lexeme} {d : Datum} (hrun : s.run stop ls = .ok d) :
    (State.after d []).Consumed (tokens ++ ls.map (·.token)) := by
  induction ls generalizing s tokens with
  | nil =>
    obtain rfl := Option.some.inj (State.run_eq_ok_iff.mp hrun)
    simpa using h
  | cons l ls ih =>
    rw [State.run] at hrun
    cases hstep : s.step l with
    | ok s' =>
      rw [hstep] at hrun
      simpa using ih (h.step hstep) hrun
    | error fault =>
      rw [hstep] at hrun
      cases hrun

/-! ## The tokens of a value can be told apart -/

/-- Tokens that can stand in a literal, of which no two run into each other. -/
structure Tidy (tokens : List Token) : Prop where
  separated : Separated tokens
  legal : ∀ t ∈ tokens, t.Legal

theorem Tidy.nil : Tidy [] :=
  ⟨.nil, fun _ ht ↦ nomatch ht⟩

theorem Tidy.single {t : Token} (h : t.Legal) : Tidy [t] :=
  ⟨.singleton t, fun _ ht ↦ List.mem_singleton.mp ht ▸ h⟩

/-- A mark keeps apart what stands before it and behind it. -/
theorem Tidy.mark {a b : List Token} (ha : Tidy a) (hb : Tidy b) {c : Char} (hc : c ∈ marks) :
    Tidy (a ++ .mark c :: b) where
  separated := by
    refine List.isChain_append.mpr ⟨ha.separated, List.isChain_cons.mpr ⟨?_, hb.separated⟩, ?_⟩
    · exact fun _ _ ↦ .inl trivial
    · rintro _ _ _ ⟨⟩
      exact .inr trivial
  legal t ht := by
    obtain ht | ht := List.mem_append.mp ht
    · exact ha.legal t ht
    · obtain rfl | ht := List.mem_cons.mp ht
      · exact hc
      · exact hb.legal t ht

theorem Key.legal {t : Token} {key : String} (h : Key t key) : t.Legal := by
  cases h <;> trivial

mutual

theorem Value.tidy {outer : Bool} {tokens : List Token} {d : Datum} :
    Value outer tokens d → Tidy tokens
  | .number _ => .single trivial
  | .text _ => .single trivial
  | .true => .single trivial
  | .false => .single trivial
  | .emptyList => Tidy.nil.mark (Tidy.nil.mark .nil (by decide)) (by decide)
  | .list h => Tidy.nil.mark (h.tidy.mark .nil (by decide)) (by decide)
  | .emptyRecord => Tidy.nil.mark (Tidy.nil.mark .nil (by decide)) (by decide)
  | .record h => Tidy.nil.mark (h.tidy.mark .nil (by decide)) (by decide)

theorem Items.tidy {tokens : List Token} {items : List Datum} : Items tokens items → Tidy tokens
  | .one h => h.tidy
  | .more hitems h => hitems.tidy.mark h.tidy (by decide)

theorem Pairs.tidy {tokens : List Token} {pairs : List (String × Datum)} :
    Pairs tokens pairs → Tidy tokens
  | .one hkey h => (Tidy.single hkey.legal).mark h.tidy (by decide)
  | .more hpairs hkey h =>
    hpairs.tidy.mark ((Tidy.single hkey.legal).mark h.tidy (by decide)) (by decide)

end

/-! ## Literals -/

theorem read_eq_ok_iff {text : List Char} {d : Datum} :
    read text = .ok d ↔ Value true ((lexemes 0 text).map (·.token)) d := by
  constructor
  · intro h
    have hstart : State.start.Consumed [] := .outermost
    obtain ⟨before, inner, hopens, hd, heq⟩ := hstart.run h
    cases hopens
    rw [List.nil_append, List.nil_append] at heq
    rw [heq]
    exact hd
  · exact fun h ↦ State.run_eq_ok_iff.mpr (h.after? rfl)

theorem read_eq_ok_iff_denotes {text : List Char} {d : Datum} :
    read text = .ok d ↔ Denotes text d := by
  rw [read_eq_ok_iff]
  constructor
  · intro h
    refine ⟨_, spells_lexemes 0 text fun l hl ↦ ?_, h⟩
    exact h.tidy.legal _ (List.mem_map_of_mem hl)
  · rintro ⟨tokens, hspells, h⟩
    rwa [lexemes_of_spells hspells h.tidy.separated]

end WaveNotebook.Literal
