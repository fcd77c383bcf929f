import WaveNotebook.Proofs.Document.Lexer

/-!
# Tokens of a document of fields

A document is a block of fields, or one such block under a key. Its tokens are those of its lines
one after the other, between the start of each block and its end.
-/

namespace WaveNotebook.Document

/-! ## Fields -/

/-- The forms of the tokens of a field. -/
def fieldForms (f : String × Datum) : List TokenForm :=
  [.key, .scalar f.1.toList .plain, .value, .scalar (contentOf f.2).1 (contentOf f.2).2]

/-- The forms of the tokens of a block. -/
def blockForms (fields : Record) : List TokenForm :=
  .fieldsStart :: (fields.flatMap fieldForms ++ [.blockEnd])

/-- Fields whose names are keys and whose data can be written and read. -/
def WritableFields (fields : Record) : Prop :=
  ∀ f ∈ fields, Lexer.IsKey f.1.toList ∧ Writable f.2

/-- The column at which the next field starts, or the end of the document. -/
def fieldColumn (indent : ℕ) (fields : Record) : ℕ :=
  if fields.isEmpty then 0 else indent

/-- What is written for fields behind the indentation of the first one. -/
def fieldLines (l : Layout) (indent : ℕ) : Record → List Char
  | [] => []
  | f :: fields =>
    f.1.toList ++ ':' :: ' ' :: (write l (indent + f.1.toList.length + 2) f.2 ++
      '\n' :: (List.replicate (fieldColumn indent fields) ' ' ++ fieldLines l indent fields))

theorem writeFields_eq (l : Layout) (indent : ℕ) (fields : Record) :
    writeFields l indent fields =
      List.replicate (fieldColumn indent fields) ' ' ++ fieldLines l indent fields := by
  induction fields with
  | nil => rfl
  | cons f fields ih =>
    have hlength : (List.replicate indent ' ' ++ f.1.toList ++ [':', ' ']).length =
        indent + f.1.toList.length + 2 := by
      rw [List.length_append, List.length_append, List.length_replicate]
      rfl
    have hcons : writeFields l indent (f :: fields) =
        List.replicate indent ' ' ++ f.1.toList ++ [':', ' '] ++
          write l (List.replicate indent ' ' ++ f.1.toList ++ [':', ' ']).length f.2 ++ ['\n'] ++
          writeFields l indent fields :=
      List.flatMap_cons
    rw [hcons, hlength, ih]
    simp [fieldColumn, fieldLines]

theorem length_fieldLines (l : Layout) (indent : ℕ) (fields : Record) :
    3 * fields.length ≤ (fieldLines l indent fields).length := by
  induction fields with
  | nil => exact Nat.le_refl 0
  | cons f fields ih =>
    simp only [fieldLines, List.length_append, List.length_cons]
    omega

namespace Lexer

variable {l next : Lexer} {layout : Layout} {indent : ℕ} {fields : Record}

theorem stops_fieldLines (h : WritableFields fields) :
    Stops (fun c ↦ !keyChars.contains c) (fieldLines layout indent fields) := by
  cases fields with
  | nil => exact stops_nil
  | cons f fields =>
    obtain ⟨c, r, hkey⟩ := List.exists_cons_of_ne_nil (h f List.mem_cons_self).1.ne_nil
    have hmem : c ∈ keyChars := (h f List.mem_cons_self).1.subset (hkey ▸ List.mem_cons_self)
    rw [fieldLines, hkey]
    exact stops_cons_iff.mpr (by simp [hmem])

theorem fieldColumn_le (indent : ℕ) (fields : Record) : fieldColumn indent fields ≤ indent := by
  unfold fieldColumn
  split
  · exact Nat.zero_le _
  · exact Nat.le_refl _

/-- A line of a block, which may be the first one. -/
theorem exists_leads_field {f : String × Datum} (hl : l.Calm)
    (hline : l.AtLine (fieldLines layout indent (f :: fields)) indent)
    (hfields : WritableFields (f :: fields)) (hindent : indent < layout.indent)
    (hwidth : layout.indent < layout.width) (hmargin : l.margin ≤ indent + 1) :
    ∃ next,
      Leads 3 ((if l.margin < indent + 1 then [.fieldsStart] else []) ++ fieldForms f) l next ∧
      next.AtLine (fieldLines layout indent fields) (fieldColumn indent fields) ∧
      next.margin = indent + 1 ∧
      next.margins = if l.margin < indent + 1 then l.margin :: l.margins else l.margins := by
  obtain ⟨⟨hkey, hvalue⟩, hfields⟩ := List.forall_mem_cons.mp hfields
  obtain ⟨l₁, hlead, hrest, hcolumn, hallowed, hmargin₁, hmargins₁⟩ :=
    exists_leads_key hl hline hkey (stops_cons_iff.mpr rfl) hmargin
  have hwritten := hvalue.writtenScalar (by omega) hwidth (indent + f.1.toList.length + 2)
  obtain ⟨l₂, hlead₂, hline₂, hmargin₂, hmargins₂⟩ := exists_leads_value hlead.calm hallowed hrest
    hwritten (by omega) (Nat.lt_of_le_of_lt (fieldColumn_le _ _) (by omega)) (by omega)
    (stops_fieldLines hfields)
  refine ⟨l₂, ?_, hline₂, hmargin₂.trans hmargin₁, hmargins₂.trans hmargins₁⟩
  have hleads := hlead.trans hlead₂
  rwa [List.append_assoc] at hleads

/-- Further lines of a block up to the end of the document. -/
theorem exists_leads_fields (hl : l.Calm)
    (hline : l.AtLine (fieldLines layout indent fields) (fieldColumn indent fields))
    (hfields : WritableFields fields) (hindent : indent < layout.indent)
    (hwidth : layout.indent < layout.width) (hmargin : l.margin = indent + 1) :
    ∃ next, Leads (3 * fields.length) (fields.flatMap fieldForms) l next ∧ next.AtLine [] 0 ∧
      next.margin = l.margin ∧ next.margins = l.margins := by
  induction fields generalizing l with
  | nil => exact ⟨l, ⟨fun _ ↦ rfl, (List.append_nil _).symm, hl⟩, hline, rfl, rfl⟩
  | cons f fields ih =>
    obtain ⟨l₁, hlead, hline₁, hmargin₁, hmargins₁⟩ :=
      exists_leads_field hl hline hfields hindent hwidth hmargin.le
    rw [if_neg hmargin.not_lt] at hlead hmargins₁
    obtain ⟨l₂, hlead₂, hline₂, hmargin₂, hmargins₂⟩ :=
      ih hlead.calm hline₁ (List.forall_mem_cons.mp hfields).2 hmargin₁
    refine ⟨l₂, ?_, hline₂, by omega, hmargins₂.trans hmargins₁⟩
    have hleads := hlead.trans hlead₂
    rwa [← Nat.mul_succ] at hleads

/-- The lines of a block that starts with them. -/
theorem exists_leads_block (hl : l.Calm) (hne : fields ≠ [])
    (hline : l.AtLine (fieldLines layout indent fields) indent)
    (hfields : WritableFields fields) (hindent : indent < layout.indent)
    (hwidth : layout.indent < layout.width) (hmargin : l.margin < indent + 1) :
    ∃ next, Leads (3 * fields.length) (.fieldsStart :: fields.flatMap fieldForms) l next ∧
      next.AtLine [] 0 ∧ next.margin = indent + 1 ∧ next.margins = l.margin :: l.margins := by
  obtain ⟨f, fields, rfl⟩ := List.exists_cons_of_ne_nil hne
  obtain ⟨l₁, hlead, hline₁, hmargin₁, hmargins₁⟩ :=
    exists_leads_field hl hline hfields hindent hwidth hmargin.le
  rw [if_pos hmargin] at hlead hmargins₁
  obtain ⟨l₂, hlead₂, hline₂, hmargin₂, hmargins₂⟩ := exists_leads_fields hlead.calm hline₁
    (List.forall_mem_cons.mp hfields).2 hindent hwidth hmargin₁
  refine ⟨l₂, ?_, hline₂, hmargin₂.trans hmargin₁, hmargins₂.trans hmargins₁⟩
  have hleads := hlead.trans hlead₂
  rwa [← Nat.mul_succ] at hleads

/-! ## The end of a document -/

/-- The signs of the end of so many blocks. -/
def pushEnds (n : ℕ) (l : Lexer) : Lexer :=
  (List.replicate n ()).foldl (fun l _ ↦ l.pushMark .blockEnd) l

theorem forms_pushMark (h : l.Settled) (f : TokenForm) :
    (l.pushMark f).forms = l.forms ++ [f] := by
  have htokens : (l.pushMark f).tokens = ⟨f, l.mark, l.mark⟩ :: l.tokens := rfl
  exact forms_of_push h htokens rfl

theorem Settled.pushMark (h : l.Settled) (f : TokenForm) : (l.pushMark f).Settled :=
  fun k hk ↦ Nat.lt_succ_of_lt (h k hk)

theorem pushEnds_spec (hl : l.Calm) (n : ℕ) :
    (l.pushEnds n).Calm ∧ (l.pushEnds n).cursor = l.cursor ∧
      (l.pushEnds n).forms = l.forms ++ List.replicate n .blockEnd := by
  induction n generalizing l with
  | zero => exact ⟨hl, rfl, (List.append_nil _).symm⟩
  | succ n ih =>
    obtain ⟨hcalm, hcursor, hforms⟩ :=
      ih (l := l.pushMark .blockEnd) ⟨hl.depth, hl.pending, hl.settled.pushMark _⟩
    refine ⟨hcalm, hcursor, hforms.trans ?_⟩
    rw [forms_pushMark hl.settled, List.append_assoc]
    rfl

/-- Closing blocks leaves the first one that is not indented deeper. -/
theorem closeBlocks_eq {a : List ℕ} {b : ℕ} {bs : List ℕ} {margin : ℕ} (hl : l.Calm)
    (hstack : l.margin :: l.margins = a ++ b :: bs) (ha : ∀ x ∈ a, margin < x) (hb : b ≤ margin) :
    l.closeBlocks margin = { l.pushEnds a.length with margin := b, margins := bs } := by
  have hblock : l.inBlock = true := beq_iff_eq.mpr hl.depth
  have hkept : (l.margin :: l.margins).dropWhile (margin < ·) = b :: bs := by
    rw [hstack, List.dropWhile_append_of_pos (by simpa using ha),
      List.dropWhile_cons_of_neg (by simpa using hb)]
  have hlength : l.margins.length + 1 - (b :: bs).length = a.length := by
    have h := congrArg List.length hstack
    rw [List.length_append, List.length_cons] at h
    omega
  unfold closeBlocks
  rw [hblock, if_pos rfl, hkept]
  dsimp only
  rw [hlength]
  rfl

theorem Calm.closeBlocks {a : List ℕ} {b : ℕ} {bs : List ℕ} {margin : ℕ} (hl : l.Calm)
    (hstack : l.margin :: l.margins = a ++ b :: bs) (ha : ∀ x ∈ a, margin < x) (hb : b ≤ margin) :
    (l.closeBlocks margin).Calm ∧ (l.closeBlocks margin).cursor = l.cursor ∧
      (l.closeBlocks margin).margin :: (l.closeBlocks margin).margins = b :: bs ∧
      (l.closeBlocks margin).forms = l.forms ++ List.replicate a.length .blockEnd := by
  obtain ⟨hcalm, hcursor, hforms⟩ := pushEnds_spec hl a.length
  rw [closeBlocks_eq hl hstack ha hb]
  exact ⟨⟨hcalm.depth, hcalm.pending, hcalm.settled⟩, hcursor, rfl, hforms⟩

theorem between_of_calm (h : (l.closeBlocks 0).Calm) :
    l.between = .ok { l.closeBlocks 0 with keyAllowed := false } := by
  have hdrop : (l.closeBlocks 0).dropKey = .ok (l.closeBlocks 0) := by
    unfold dropKey
    rw [h.pending]
    rfl
  unfold between
  rw [hdrop]
  rfl

/-- The step at the end of the text, from a line without indentation. -/
theorem step_end (hgaps : l.skipGaps (l.cursor.rest.length + 1) = next) (hnext : next.Calm)
    (hrest : (next.closeBlocks 1).cursor.rest = []) (hcolumn : next.mark.column = 0)
    (hclosed : ((next.closeBlocks 1).closeBlocks 0).Calm) :
    l.step = .ok ({ (next.closeBlocks 1).closeBlocks 0 with
      keyAllowed := false }.pushMark .streamEnd) := by
  have hpeek : (next.closeBlocks 1).cursor.peek = none := congrArg List.head? hrest
  have hcolumn : next.mark.column + 1 = 1 := congrArg Nat.succ hcolumn
  unfold step
  rw [hgaps, dropStale_of_pending_nil hnext.pending]
  simp only [bind, Except.bind, hcolumn, hpeek, between_of_calm hclosed]
  rfl

/-- At the end of the text the blocks that are open end. -/
theorem exists_run_end {opened : List ℕ} (hl : l.Calm) (hline : l.AtLine [] 0)
    (hstack : l.margin :: l.margins = opened ++ [0]) (hopened : ∀ m ∈ opened, 0 < m) (bound : ℕ) :
    ∃ tokens, run (bound + 1) l = (tokens, none) ∧ tokens.map (·.form) =
      l.forms ++ (List.replicate opened.length .blockEnd ++ [.streamEnd]) := by
  obtain ⟨m, hm, hgaps⟩ := hline
  let l₀ : Lexer := { l with cursor := ⟨[], m⟩, keyAllowed := true }
  have hl₀ : l₀.Calm := ⟨hl.depth, hl.pending, hl.settled⟩
  -- the blocks inside the outermost one end first
  let a := opened.takeWhile (1 < ·)
  let c := opened.dropWhile (1 < ·)
  have hopen : opened = a ++ c := List.takeWhile_append_dropWhile.symm
  obtain ⟨b, bs, hrest, hb⟩ : ∃ b bs, c ++ [0] = b :: bs ∧ b ≤ 1 := by
    have hhead := List.head?_dropWhile_not (1 < ·) opened
    cases hc : c with
    | nil => exact ⟨0, [], rfl, Nat.zero_le 1⟩
    | cons b c =>
      rw [show opened.dropWhile (1 < ·) = b :: c from hc] at hhead
      exact ⟨b, c ++ [0], rfl, Nat.not_lt.mp (of_decide_eq_false hhead)⟩
  have hstack₀ : l₀.margin :: l₀.margins = a ++ b :: bs := by
    rw [← hrest, ← List.append_assoc, ← hopen]
    exact hstack
  obtain ⟨hl₁, hcursor₁, hstack₁, hforms₁⟩ :=
    hl₀.closeBlocks hstack₀ (fun x hx ↦ by simpa using List.mem_takeWhile_imp hx) hb
  obtain ⟨hl₂, -, -, hforms₂⟩ := hl₁.closeBlocks (hstack₁.trans hrest.symm)
    (fun x hx ↦ hopened x (hopen ▸ List.mem_append_right _ hx)) (Nat.le_refl 0)
  change l.skipGaps _ = l₀ at hgaps
  have hstep := step_end hgaps hl₀ (congrArg Cursor.rest hcursor₁) hm hl₂
  let l₂ : Lexer := { (l₀.closeBlocks 1).closeBlocks 0 with keyAllowed := false }
  refine ⟨(l₂.pushMark .streamEnd).allTokens, ?_, ?_⟩
  · rw [run, hstep]
    rfl
  · have hlength : a.length + c.length = opened.length := by
      rw [← List.length_append, ← hopen]
    change (l₂.pushMark .streamEnd).forms = _
    rw [forms_pushMark (l := l₂) hl₂.settled]
    change ((l₀.closeBlocks 1).closeBlocks 0).forms ++ _ = _
    rw [hforms₂, hforms₁, ← hlength, List.replicate_add]
    simp only [List.append_assoc]
    rfl

/-! ## Whole documents -/

section Start

variable {s : List Char} (hs : Stops (fun c ↦ !keyChars.contains c) s)

include hs

theorem cursor_start : (start s).cursor = Cursor.start s := by
  have hmark : Stops (· == byteOrderMark) s := stops_of_keyChars hs (by decide)
  exact if_neg fun h ↦ absurd (hmark byteOrderMark h) (by decide)

theorem atLine_start : (start s).AtLine s 0 :=
  atLine_self (stops_of_keyChars hs (by decide)) (cursor_start hs) rfl rfl

end Start

theorem calm_start (s : List Char) : (start s).Calm :=
  ⟨rfl, rfl, fun _ h ↦ nomatch h⟩

theorem exists_tokensOf {s : List Char} {n : ℕ} {fs : List TokenForm} (opened : List ℕ)
    (hs : IsDocument s) (hlead : Leads n fs (start s) next) (hn : n ≤ s.length)
    (hline : next.AtLine [] 0) (hstack : next.margin :: next.margins = opened ++ [0])
    (hopened : ∀ m ∈ opened, 0 < m) :
    ∃ tokens, tokensOf s = (tokens, none) ∧ tokens.map (·.form) =
      fs ++ (List.replicate opened.length .blockEnd ++ [.streamEnd]) := by
  obtain ⟨tokens, hrun, hforms⟩ :=
    exists_run_end hlead.calm hline hstack hopened (s.length - n)
  refine ⟨tokens, ?_, ?_⟩
  · rw [tokensOf_eq hs, ← hrun, ← hlead.run_eq]
    congr 1
    omega
  · rw [hforms, hlead.forms_eq]
    rfl

end Lexer

open Lexer

variable {layout : Layout} {indent : ℕ} {fields : Record}

theorem isDocument_fieldLines (hindent : layout.indent ≠ 0) (hwidth : layout.indent < layout.width)
    (h : WritableFields fields) : IsDocument (fieldLines layout indent fields) := by
  induction fields with
  | nil => exact isDocument_nil
  | cons f fields ih =>
    obtain ⟨⟨hkey, hvalue⟩, hfields⟩ := List.forall_mem_cons.mp h
    refine isDocument_append_iff.mpr ⟨hkey.simple.isDocument, isDocument_cons_iff.mpr ⟨.inl rfl,
      isDocument_cons_iff.mpr ⟨.inl rfl, isDocument_append_iff.mpr ⟨?_,
        isDocument_cons_iff.mpr ⟨.inr rfl, isDocument_append_iff.mpr ⟨?_, ih hfields⟩⟩⟩⟩⟩⟩
    · exact (hvalue.writtenScalar hindent hwidth _).isDocument
    · exact (simple_spaces _).isDocument

/-- The tokens of fields that make up a document. -/
theorem exists_tokensOf_writeFields (hne : fields ≠ []) (hfields : WritableFields fields)
    (hindent : layout.indent ≠ 0) (hwidth : layout.indent < layout.width) :
    ∃ tokens, tokensOf (writeFields layout 0 fields) = (tokens, none) ∧
      tokens.map (·.form) = blockForms fields ++ [.streamEnd] := by
  have hwritten : writeFields layout 0 fields = fieldLines layout 0 fields := by
    rw [writeFields_eq, Nat.le_zero.mp (fieldColumn_le 0 fields)]
    rfl
  obtain ⟨next, hlead, hline, hmargin, hmargins⟩ := exists_leads_block (calm_start _) hne
    (atLine_start (stops_fieldLines hfields)) hfields (Nat.pos_of_ne_zero hindent) hwidth
    (Nat.succ_pos 0)
  rw [hwritten]
  obtain ⟨tokens, htokens, hforms⟩ := exists_tokensOf [1]
    (isDocument_fieldLines hindent hwidth hfields) hlead (length_fieldLines _ _ _) hline
    (by rw [hmargin, hmargins]; rfl) (by decide)
  refine ⟨tokens, htokens, hforms.trans ?_⟩
  simp [blockForms]

/-- The tokens of fields under a key. -/
theorem exists_tokensOf_section {key : List Char} (hkey : IsKey key) (hne : fields ≠ [])
    (hfields : WritableFields fields) (hindent : indent ≠ 0) (hlayout : indent < layout.indent)
    (hwidth : layout.indent < layout.width) :
    ∃ tokens, tokensOf (key ++ [':', '\n'] ++ writeFields layout indent fields) = (tokens, none) ∧
      tokens.map (·.form) = [.fieldsStart, .key, .scalar key .plain, .value] ++
        (blockForms fields ++ [.blockEnd, .streamEnd]) := by
  let t := '\n' :: (List.replicate indent ' ' ++ fieldLines layout indent fields)
  have hcolumn : fieldColumn indent fields = indent := by
    obtain ⟨f, fields, rfl⟩ := List.exists_cons_of_ne_nil hne
    rfl
  have hwritten : key ++ [':', '\n'] ++ writeFields layout indent fields = key ++ ':' :: t := by
    rw [writeFields_eq, hcolumn, List.append_assoc]
    rfl
  have hstart : Stops (fun c ↦ !keyChars.contains c) (key ++ ':' :: t) := by
    obtain ⟨c, r, rfl⟩ := List.exists_cons_of_ne_nil hkey.ne_nil
    exact stops_cons_iff.mpr (by simp [hkey.subset List.mem_cons_self])
  obtain ⟨l₁, hlead₁, hrest, -, -, hmargin₁, hmargins₁⟩ := exists_leads_key (calm_start _)
    (atLine_start hstart) hkey (stops_cons_iff.mpr rfl) (Nat.zero_le 1)
  have hline₁ : l₁.AtLine (fieldLines layout indent fields) indent :=
    atLine_behind (m := l₁.mark) (stops_of_keyChars (stops_fieldLines hfields) (by decide))
      hlead₁.calm.depth (congrArg (Cursor.mk · l₁.mark) hrest)
  obtain ⟨next, hlead, hline, hmargin, hmargins⟩ := exists_leads_block hlead₁.calm hne hline₁
    hfields hlayout hwidth (by omega)
  have hdocument : IsDocument (key ++ ':' :: t) := by
    refine isDocument_append_iff.mpr ⟨hkey.simple.isDocument,
      isDocument_cons_iff.mpr ⟨.inl rfl, isDocument_cons_iff.mpr ⟨.inr rfl,
        isDocument_append_iff.mpr ⟨(simple_spaces _).isDocument, ?_⟩⟩⟩⟩
    exact isDocument_fieldLines (by omega) hwidth hfields
  rw [hwritten]
  obtain ⟨tokens, htokens, hforms⟩ := exists_tokensOf [indent + 1, 1] hdocument
    (hlead₁.trans hlead) (by
      have hlength := length_fieldLines layout indent fields
      simp only [t, List.length_append, List.length_cons]
      omega) hline (by rw [hmargin, hmargins, hmargin₁, hmargins₁]; rfl) (by simp)
  refine ⟨tokens, htokens, hforms.trans ?_⟩
  simp [blockForms, start]

end WaveNotebook.Document
