import WaveNotebook.Literal.Shape
import WaveNotebook.Proofs.Literal.Scan

/-!
# Lists and records put together from texts

The texts of values with commas between them and brackets around them are the text of the list of
these values, and the texts of pairs are the text of a record. Only a record cannot be a part of
such a text.
-/

namespace WaveNotebook.Literal

open Text Workspace

/-- The text is a literal of the datum and can be a part of a list or of a record. -/
def DenotesPart (text : List Char) (d : Datum) : Prop :=
  ∃ tokens, Spells tokens text ∧ Value false tokens d

theorem Value.outermost {tokens : List Token} {d : Datum} (h : Value Bool.false tokens d) :
    Value Bool.true tokens d := by
  cases h with
  | number n => exact .number n
  | text s => exact .text s
  | true => exact .true
  | false => exact .false
  | emptyList => exact .emptyList
  | list h => exact .list h

theorem DenotesPart.denotes {text : List Char} {d : Datum} (h : DenotesPart text d) :
    Denotes text d :=
  h.imp fun _ ⟨hspells, hd⟩ ↦ ⟨hspells, hd.outermost⟩

theorem Spells.comma {tokens tokens' : List Token} {a b : List Char} (ha : Spells tokens a)
    (hb : Spells tokens' b) : Spells (tokens ++ .mark ',' :: tokens') (a ++ ',' :: b) :=
  ha.append (hb.mark (by decide))

/-- A text between two marks. -/
theorem Spells.enclosed {opener closer : Char} (hopener : opener ∈ marks)
    (hcloser : closer ∈ marks) {tokens : List Token} {s : List Char} (hs : Spells tokens s) :
    Spells (.mark opener :: (tokens ++ [.mark closer])) (opener :: (s ++ [closer])) :=
  (hs.append (Spells.nil.mark hcloser)).mark hopener

/-! ## Lists -/

/-- Items can be put in front of others as well as behind them. -/
theorem Items.cons {tokens tokens' : List Token} {d : Datum} {items : List Datum} :
    Value false tokens d → Items tokens' items →
      Items (tokens ++ .mark ',' :: tokens') (d :: items)
  | hd, .one h => .more (.one hd) h
  | hd, .more hitems h => by
    have hmore := (Items.cons hd hitems).more h
    rwa [List.append_assoc, List.cons_append] at hmore

def listText (texts : List (List Char)) : List Char :=
  '[' :: (joinWith ',' texts ++ [']'])

theorem exists_items_joinWith {texts : List (List Char)} {items : List Datum}
    (h : List.Forall₂ DenotesPart texts items) (hne : items ≠ []) :
    ∃ tokens, Spells tokens (joinWith ',' texts) ∧ Items tokens items := by
  induction h with
  | nil => exact absurd rfl hne
  | @cons text d texts items ht hrest ih =>
    obtain ⟨tokens, hspells, hd⟩ := ht
    cases hrest with
    | nil =>
      rw [joinWith, List.intercalate_singleton]
      exact ⟨tokens, hspells, .one hd⟩
    | cons ht' hrest' =>
      obtain ⟨tokens', hspells', hitems⟩ := ih (List.cons_ne_nil _ _)
      rw [Scan.joinWith_cons_cons]
      exact ⟨_, hspells.comma hspells', .cons hd hitems⟩

theorem denotesPart_listText {texts : List (List Char)} {items : List Datum}
    (h : List.Forall₂ DenotesPart texts items) (hne : items ≠ []) :
    DenotesPart (listText texts) (.list items) := by
  obtain ⟨tokens, hspells, hitems⟩ := exists_items_joinWith h hne
  exact ⟨_, hspells.enclosed (by decide) (by decide), .list hitems⟩

/-! ## Records -/

theorem Pairs.cons {t : Token} {key : String} {tokens tokens' : List Token} {d : Datum}
    {pairs : List (String × Datum)} : Key t key → Value false tokens d → Pairs tokens' pairs →
      Pairs (t :: .mark ':' :: tokens ++ .mark ',' :: tokens') ((key, d) :: pairs)
  | hkey, hd, .one hkey' h => .more (.one hkey hd) hkey' h
  | hkey, hd, .more hpairs hkey' h => by
    have hmore := (Pairs.cons hkey hd hpairs).more hkey' h
    rwa [List.append_assoc, List.cons_append] at hmore

/-- A word and a text with a colon between them. -/
def fieldText (field : List Char × List Char) : List Char :=
  field.1 ++ ':' :: field.2

def recordText (fields : List (List Char × List Char)) : List Char :=
  '{' :: (joinWith ',' (fields.map fieldText) ++ ['}'])

/-- The field has the key and is a literal of the value. -/
def DenotesField (field : List Char × List Char) (pair : String × Datum) : Prop :=
  isPlainName field.1 = true ∧ pair.1 = String.ofList field.1 ∧ DenotesPart field.2 pair.2

theorem DenotesField.exists_spells {field : List Char × List Char} {pair : String × Datum}
    (h : DenotesField field pair) :
    ∃ t tokens, Spells (t :: .mark ':' :: tokens) (fieldText field) ∧ Key t pair.1 ∧
      Value false tokens pair.2 := by
  obtain ⟨hname, hkey, tokens, hspells, hd⟩ := h
  have hcolon : Spells (.mark ':' :: tokens) (':' :: field.2) := hspells.mark (by decide)
  exact ⟨.word field.1, tokens, .token (.word hname) hcolon, hkey ▸ .word _, hd⟩

theorem exists_pairs_joinWith {fields : List (List Char × List Char)}
    {pairs : List (String × Datum)} (h : List.Forall₂ DenotesField fields pairs)
    (hne : pairs ≠ []) :
    ∃ tokens, Spells tokens (joinWith ',' (fields.map fieldText)) ∧ Pairs tokens pairs := by
  induction h with
  | nil => exact absurd rfl hne
  | @cons field pair fields pairs hfield hrest ih =>
    obtain ⟨t, tokens, hspells, hkey, hd⟩ := hfield.exists_spells
    cases hrest with
    | nil =>
      rw [List.map_singleton, joinWith, List.intercalate_singleton]
      exact ⟨_, hspells, .one hkey hd⟩
    | cons hfield' hrest' =>
      obtain ⟨tokens', hspells', hpairs⟩ := ih (List.cons_ne_nil _ _)
      rw [List.map_cons, List.map_cons, Scan.joinWith_cons_cons]
      exact ⟨_, hspells.comma hspells', .cons hkey hd hpairs⟩

/-- Repeated keys are allowed: the last value of a key counts. -/
theorem readOptions_recordText {fields : List (List Char × List Char)}
    {pairs : List (String × Datum)} (h : List.Forall₂ DenotesField fields pairs)
    (hne : pairs ≠ []) : readOptions (recordText fields) = .ok (Record.ofPairs pairs) := by
  obtain ⟨tokens, hspells, hpairs⟩ := exists_pairs_joinWith h hne
  have hread : read (recordText fields) = .ok (.record (Record.ofPairs pairs)) :=
    read_eq_ok_iff_denotes.mpr
      ⟨_, hspells.enclosed (by decide) (by decide), .record hpairs⟩
  rw [readOptions, hread]

/-! ## Grids -/

theorem numbers?_map_number (xs : List Float) : numbers? (xs.map .number) = some xs := by
  unfold numbers?
  induction xs with
  | nil => rfl
  | cons x xs ih =>
    rw [List.map_cons, List.mapM_cons, ih]
    rfl

theorem mapM_row?_map_number {rows : List (List Float)} (h : ∀ row ∈ rows, row ≠ []) :
    (rows.map fun row ↦ Datum.list (row.map .number)).mapM row? = some rows := by
  induction rows with
  | nil => rfl
  | cons row rows ih =>
    obtain ⟨hrow, hrows⟩ := List.forall_mem_cons.mp h
    have hfirst : row? (.list (row.map .number)) = some row := by
      rw [row?, if_neg (by simpa using hrow), numbers?_map_number]
    rw [List.map_cons, List.mapM_cons, hfirst, ih hrows]
    rfl

/-- Rows of one length whose texts denote numbers are the grid of these numbers. -/
theorem readGrid_listText {rows : List (List (List Char))} {values : List (List Float)} {cols : ℕ}
    (h : List.Forall₂ (List.Forall₂ fun t x ↦ DenotesPart t (.number x)) rows values)
    (hne : values ≠ []) (hcols : 0 < cols) (hlength : ∀ value ∈ values, value.length = cols) :
    readGrid (listText (rows.map listText)) = .ok values := by
  have hvalues : ∀ value ∈ values, value ≠ [] := fun value hvalue ↦
    List.ne_nil_of_length_pos (hlength value hvalue ▸ hcols)
  have hparts : List.Forall₂ DenotesPart (rows.map listText)
      (values.map fun value ↦ .list (value.map .number)) := by
    rw [List.forall₂_map_left_iff, List.forall₂_map_right_iff]
    refine ((List.forall₂_and_left _ _).mpr ⟨hvalues, h.flip⟩).flip.imp
      fun row value ⟨hvalue, hrow⟩ ↦ ?_
    exact denotesPart_listText (List.forall₂_map_right_iff.mpr hrow) (by simpa using hvalue)
  have hread := read_eq_ok_iff_denotes.mpr
    (denotesPart_listText hparts (by simpa using hne)).denotes
  rw [readGrid, hread]
  dsimp only
  rw [mapM_row?_map_number hvalues]
  obtain ⟨value, rest, rfl⟩ := List.exists_cons_of_ne_nil hne
  obtain ⟨hfirst, hrest⟩ := List.forall_mem_cons.mp hlength
  refine if_pos (List.all_eq_true.mpr fun value' hvalue' ↦ ?_)
  rw [beq_iff_eq, hfirst, hrest value' hvalue']

end WaveNotebook.Literal
