import WaveNotebook.Config.Document
import WaveNotebook.Proofs.Config.Record
import WaveNotebook.Proofs.Document.Tree

/-!
# Settings that are saved and loaded

Settings as a record give themselves, and so do settings that are written as a document and read
from there, under their key or at the top level. This needs that the reader finds in the document
the fields that were written, which it does unless an integer has too many digits.
-/

namespace WaveNotebook

open Document

namespace Config

/-! ## Settings as a record -/

theorem ofDatum?_toDatum (w : Whole) : Whole.ofDatum? w.toDatum = some w := by
  cases w <;> rfl

/-- Settings are what their record says. -/
theorem saidBy_toRecord (c : Config) : c.SaidBy c.toRecord where
  rate := rfl
  marker := rfl
  preview := ofDatum?_toDatum c.preview
  sifts := ofDatum?_toDatum c.sifts

theorem valid_of_ofRecord {r : Record} {c : Config} (h : ofRecord r = .ok c) : c.Valid := by
  have hends := ofRecord_ends r
  rw [h] at hends
  exact hends.value.1

theorem ofRecord_toRecord {c : Config} (h : c.Valid) : ofRecord c.toRecord = .ok c :=
  ofRecord_eq_ok h (saidBy_toRecord c)

/-! ## Settings as a mapping -/

/-- The settings as the fields of a mapping. -/
def block (c : Config) : List (Datum × Tree) :=
  Tree.textFields (leafFields c.toRecord)

theorem namedFields_textFields (r : Record) :
    namedFields (Tree.textFields (leafFields r)) = r := by
  induction r with
  | nil => rfl
  | cons f r ih =>
    change f :: namedFields (Tree.textFields (leafFields r)) = f :: r
    rw [ih]

theorem isKey_of_mem : ∀ key ∈ sectionKey :: keys, Lexer.IsKey key.toList := by
  have hchars : ∀ key ∈ sectionKey :: keys, (key.toList.isEmpty = false ∧
      key.toList.all (Lexer.keyChars.contains ·) = true) ∧ key.toList.length ≤ 1024 := by
    decide
  have hform : ∀ key ∈ sectionKey :: keys, formOf key.toList = .text := by
    decide +kernel
  intro key hkey
  obtain ⟨⟨hempty, hall⟩, hlength⟩ := hchars key hkey
  refine ⟨List.isEmpty_eq_false_iff.mp hempty, fun c hc ↦ ?_, hlength, hform key hkey⟩
  exact List.contains_iff_mem.mp (List.all_eq_true.mp hall c hc)

theorem isKey_of_mem_toRecord (c : Config) : ∀ f ∈ c.toRecord, Lexer.IsKey f.1.toList := by
  intro f hf
  have hname : f.1 ∈ c.toRecord.map Prod.fst := List.mem_map_of_mem hf
  exact isKey_of_mem f.1 (List.mem_cons_of_mem _ hname)

/-- No setting has the name of the block. -/
theorem field?_block (c : Config) : Tree.field? c.block sectionKey = none :=
  Tree.field?_textFields_of_notMem (List.forall_mem_map.mpr c.isKey_of_mem_toRecord)
    (isKey_of_mem _ List.mem_cons_self) (by decide : sectionKey ∉ keys)

theorem field?_section (t : Tree) : Tree.field? [(.text sectionKey, t)] sectionKey = some t :=
  Tree.field?_self (isKey_of_mem _ List.mem_cons_self) t

/-- Fields at the top level, in which there is no block. -/
theorem ofTree_of_flat (path : String) {fields : List (Datum × Tree)}
    (h : Tree.field? fields sectionKey = none) :
    ofTree path (some (.mapping fields)) = ofRecord (namedFields fields) := by
  unfold ofTree
  dsimp only
  rw [h]
  rfl

/-- Fields in a block. -/
theorem ofTree_of_section (path : String) {fields outer : List (Datum × Tree)}
    (h : Tree.field? outer sectionKey = some (.mapping fields)) :
    ofTree path (some (.mapping outer)) = ofRecord (namedFields fields) := by
  unfold ofTree
  dsimp only
  rw [h]
  rfl

theorem ofDocument_of_treeOf (path : String) {text : List Char} {t : Option Tree}
    (h : treeOf text = .ok t) : ofDocument path (some text) = ofTree path t := by
  unfold ofDocument
  rw [Option.map_some, h]

/-! ## Settings as a document -/

/-- The reader gives the block back that the writer wrote under the key of the settings. -/
def ReadsBack (c : Config) : Prop :=
  treeOf c.toDocument = .ok (some (.mapping [(.text sectionKey, .mapping c.block)]))

/-- Neither integer has too many digits for the reader. -/
def Showable (c : Config) : Prop :=
  c.preview.toDatum.isShowable = true ∧ c.sifts.toDatum.isShowable = true

theorem writable_whole {w : Whole} (hnonneg : 0 ≤ w.toInt)
    (hshow : w.toDatum.isShowable = true) : Writable w.toDatum := by
  cases w with
  | flag b => exact .bool b
  | integer n =>
    obtain ⟨n, rfl⟩ := Int.eq_ofNat_of_zero_le hnonneg
    simp only [Whole.toDatum, Datum.isShowable, decide_eq_true_eq, Int.natAbs_natCast] at hshow
    exact .integer hshow

theorem writableFields_toRecord {c : Config} (hvalid : c.Valid) (hshow : c.Showable) :
    WritableFields c.toRecord := by
  intro f hf
  refine ⟨c.isKey_of_mem_toRecord f hf, ?_⟩
  simp only [toRecord, List.mem_cons, List.not_mem_nil, or_false] at hf
  obtain rfl | rfl | rfl | rfl := hf
  · exact .number hvalid.rate_finite hvalid.rate_pos
  · exact .text _
  · exact writable_whole hvalid.preview_nonneg hshow.1
  · exact writable_whole (Int.le_trans (by decide) hvalid.sifts_pos) hshow.2

theorem readsBack_of_showable {c : Config} (hvalid : c.Valid) (hshow : c.Showable) :
    c.ReadsBack :=
  treeOf_section (isKey_of_mem _ List.mem_cons_self) (List.cons_ne_nil _ _)
    (writableFields_toRecord hvalid hshow) (by decide : keys.Nodup) (by decide) (by decide)
    (by decide)

/-- Settings as a document without the key of the block. -/
def toFlatDocument (c : Config) : List Char :=
  writeFields ⟨80, 2⟩ 0 c.toRecord

theorem treeOf_toFlatDocument {c : Config} (hvalid : c.Valid) (hshow : c.Showable) :
    treeOf c.toFlatDocument = .ok (some (.mapping c.block)) :=
  treeOf_writeFields (List.cons_ne_nil _ _) (writableFields_toRecord hvalid hshow)
    (by decide : keys.Nodup) (by decide) (by decide)

/-- A document that holds the fields of settings at its top level says these settings. -/
theorem ofDocument_of_flat {c : Config} (hvalid : c.Valid) (path : String) {text : List Char}
    (h : treeOf text = .ok (some (.mapping c.block))) : ofDocument path (some text) = .ok c := by
  rw [ofDocument_of_treeOf path h, ofTree_of_flat path (field?_block c)]
  exact (congrArg ofRecord (namedFields_textFields _)).trans (ofRecord_toRecord hvalid)

theorem ofDocument_of_readsBack {c : Config} (hvalid : c.Valid) (path : String)
    (h : c.ReadsBack) : ofDocument path (some c.toDocument) = .ok c := by
  rw [ofDocument_of_treeOf path h, ofTree_of_section path (field?_section _)]
  exact (congrArg ofRecord (namedFields_textFields _)).trans (ofRecord_toRecord hvalid)

/-- Settings that are accepted come back from their record. They come back from the document that
is saved if the reader finds in it the fields that were written, and it does unless an integer has
too many digits. Fields at the top level of a document, with no block beside them, say the same
settings as in the block, and those of the settings say the settings. -/
theorem accepted_come_back {r : Record} {c : Config} (h : ofRecord r = .ok c) :
    ofDatum (.record c.toRecord) = .ok c ∧
      (c.ReadsBack → ∀ path, ofDocument path (some c.toDocument) = .ok c) ∧
      (c.Showable → c.ReadsBack) ∧
      (∀ path flat, treeOf flat = .ok (some (.mapping c.block)) →
        ofDocument path (some flat) = .ok c) ∧
      (c.Showable → treeOf c.toFlatDocument = .ok (some (.mapping c.block))) ∧
      ∀ path path' flat nested fields outer,
        treeOf flat = .ok (some (.mapping fields)) → Tree.field? fields sectionKey = none →
        treeOf nested = .ok (some (.mapping outer)) →
        Tree.field? outer sectionKey = some (.mapping fields) →
        ofDocument path (some flat) = ofDocument path' (some nested) := by
  have hvalid := valid_of_ofRecord h
  refine ⟨(ofDatum_record _).trans (ofRecord_toRecord hvalid),
    fun hread path ↦ ofDocument_of_readsBack hvalid path hread, readsBack_of_showable hvalid,
    fun path _ ↦ ofDocument_of_flat hvalid path, treeOf_toFlatDocument hvalid, ?_⟩
  intro path path' flat nested fields outer hflat hfields hnested houter
  calc ofDocument path (some flat)
    _ = ofRecord (namedFields fields) :=
      (ofDocument_of_treeOf path hflat).trans (ofTree_of_flat path hfields)
    _ = ofDocument path' (some nested) :=
      ((ofDocument_of_treeOf path' hnested).trans (ofTree_of_section path' houter)).symm

/-- Settings with a marker that needs quotes and a truth value for a number. -/
def quotedSettings : Config :=
  ⟨8000.0, "it's: #1", .flag true, .integer 60⟩

theorem quotedSettings_come_back :
    ofRecord quotedSettings.toRecord = .ok quotedSettings ∧ quotedSettings.Showable ∧
      ofDatum (.record quotedSettings.toRecord) = .ok quotedSettings ∧
      ofDocument "workspace.yaml" (some quotedSettings.toDocument) = .ok quotedSettings ∧
      ofDocument "flat.yaml" (some quotedSettings.toFlatDocument) = .ok quotedSettings ∧
      ofDocument "flat.yaml" (some quotedSettings.toFlatDocument) =
        ofDocument "workspace.yaml" (some quotedSettings.toDocument) := by
  have hvalid : quotedSettings.Valid :=
    ⟨by decide +kernel, by decide +kernel, ⟨'i', by decide, by decide⟩, by decide, by decide⟩
  have hshow : quotedSettings.Showable := ⟨rfl, by decide +kernel⟩
  have haccepted := ofRecord_toRecord hvalid
  obtain ⟨hrecord, hdocument, hread, hflat, hreadFlat, hsame⟩ := accepted_come_back haccepted
  exact ⟨haccepted, hshow, hrecord, hdocument (hread hshow) _, hflat _ _ (hreadFlat hshow),
    hsame _ _ _ _ _ _ (hreadFlat hshow) (field?_block _) (hread hshow) (field?_section _)⟩

end Config

end WaveNotebook
