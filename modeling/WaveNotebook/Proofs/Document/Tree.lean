import WaveNotebook.Proofs.Document.Block

/-!
# Data of a document of fields

From the tokens of a block the reader builds a mapping, and this mapping stands for the fields
that were written. Where tokens and nodes stand in the text makes no difference.
-/

namespace WaveNotebook.Document

namespace Reading

/-- Reading from these tokens, of a document without anchors and directives. -/
def ahead (tokens : List Token) : Progress :=
  ⟨tokens, none, [], standardHandles⟩

/-- What a reading takes from some tokens, and the tokens that it leaves. -/
def ReadsOff {α : Type} (r : Reading α) (tokens : List Token) (a : α) (rest : List Token) : Prop :=
  r.run (ahead tokens) = .ok (a, ahead rest)

variable {α β : Type} {t : Token} {ts us vs : List Token}

theorem readsOff_pure (a : α) (ts : List Token) : ReadsOff (pure a) ts a ts :=
  rfl

theorem ReadsOff.bind {r : Reading α} {f : α → Reading β} {a : α} {b : β} (h : ReadsOff r ts a us)
    (h' : ReadsOff (f a) us b vs) : ReadsOff (r >>= f) ts b vs := by
  unfold ReadsOff at h h' ⊢
  rw [StateT.run_bind, h]
  exact h'

theorem readsOff_peek (t : Token) (ts : List Token) : ReadsOff peek (t :: ts) t (t :: ts) :=
  rfl

theorem readsOff_take (t : Token) (ts : List Token) : ReadsOff take (t :: ts) t ts :=
  rfl

theorem readsOff_node_scalar {text : List Char} {style : ScalarStyle} (bound : ℕ)
    (block indentless : Bool) (a b : Mark) (ts : List Token) :
    ReadsOff (node (bound + 1) block indentless) (⟨.scalar text style, a, b⟩ :: ts)
      (scalarNode none text style a) ts := by
  rfl

theorem readsOff_node_block (bound : ℕ) (indentless : Bool) (a b : Mark) {ts us : List Token}
    {nodes : List (Node × Node)} (h : ReadsOff (blockFields bound a) ts nodes us) :
    ReadsOff (node (bound + 1) true indentless) (⟨.fieldsStart, a, b⟩ :: ts)
      (.mapping (coreTag "map") nodes a) us := by
  let t : Token := ⟨.fieldsStart, a, b⟩
  -- there is neither an anchor nor a tag in front of the block
  let ps : Properties := ⟨none, none, none, a⟩
  have hproperties : ReadsOff properties (t :: ts) ps (t :: ts) := rfl
  have htag : ReadsOff (tagText ps) (t :: ts) none (t :: ts) := rfl
  have hcheck : ReadsOff (checkAnchor ps a) (t :: ts) () (t :: ts) := rfl
  have hanchor : ReadsOff (bindAnchor ps (.enclosing true a)) (t :: ts) () (t :: ts) := rfl
  have hmiss : (indentless && TokenForm.fieldsStart == .item) = false := by
    cases indentless <;> rfl
  have hparts : ReadsOff (do
      let _ ← take
      return Node.mapping "" (← blockFields bound a) a) (t :: ts) (.mapping "" nodes a) us :=
    (readsOff_take t ts).bind (h.bind (readsOff_pure _ us))
  rw [node]
  refine (readsOff_peek t ts).bind (hproperties.bind (htag.bind ((readsOff_peek t ts).bind ?_)))
  change ReadsOff (if (indentless && TokenForm.fieldsStart == .item) = true then _ else _) _ _ _
  rw [hmiss, if_neg Bool.false_ne_true]
  exact hcheck.bind (hanchor.bind (hparts.bind rfl))

/-- The end of a block. -/
theorem readsOff_blockFields_nil (bound : ℕ) (start a b : Mark) (ts : List Token) :
    ReadsOff (blockFields (bound + 1) start) (⟨.blockEnd, a, b⟩ :: ts) [] ts :=
  rfl

theorem readsOff_nodeUnless {bound : ℕ} {v : Token} {n : Node} {ends : List TokenForm}
    (hv : v.form ∉ ends) (block indentless : Bool) (m : Mark)
    (h : ReadsOff (node bound block indentless) (v :: vs) n us) :
    ReadsOff (nodeUnless (bound + 1) ends block indentless m) (v :: vs) n us := by
  have hsees : ReadsOff (sees ends) (v :: vs) false (v :: vs) := by
    have hcontains : ends.contains v.form = false := by simpa using hv
    refine (readsOff_peek v vs).bind ?_
    rw [hcontains]
    exact readsOff_pure false _
  rw [nodeUnless]
  exact hsees.bind h

theorem readsOff_fieldValue {bound : ℕ} {v : Token} {n : Node} {ends : List TokenForm}
    (hv : v.form ∉ ends) (block : Bool) (a b : Mark)
    (h : ReadsOff (node bound block block) (v :: vs) n us) :
    ReadsOff (fieldValue (bound + 2) ends block) (⟨.value, a, b⟩ :: v :: vs) n us := by
  rw [fieldValue]
  refine (readsOff_peek _ _).bind ?_
  rw [if_pos rfl]
  exact (readsOff_take _ _).bind (readsOff_nodeUnless hv block block b h)

/-- A field in front of other ones. -/
theorem readsOff_blockFields_cons {bound : ℕ} {start a₁ b₁ a₂ b₂ a₃ b₃ : Mark} {key : List Char}
    {v : Token} {n : Node} {nodes : List (Node × Node)}
    (hv : v.form ∉ [.key, .value, .blockEnd])
    (hn : ReadsOff (node (bound + 1) true true) (v :: vs) n us)
    (hnodes : ReadsOff (blockFields (bound + 3) start) us nodes ts) :
    ReadsOff (blockFields (bound + 4) start)
      (⟨.key, a₁, b₁⟩ :: ⟨.scalar key .plain, a₂, b₂⟩ :: ⟨.value, a₃, b₃⟩ :: v :: vs)
      ((scalarNode none key .plain a₂, n) :: nodes) ts := by
  have hkey : ReadsOff (nodeUnless (bound + 3) [.key, .value, .blockEnd] true true b₁)
      (⟨.scalar key .plain, a₂, b₂⟩ :: ⟨.value, a₃, b₃⟩ :: v :: vs)
      (scalarNode none key .plain a₂) (⟨.value, a₃, b₃⟩ :: v :: vs) :=
    readsOff_nodeUnless (by simp) true true b₁ (readsOff_node_scalar (bound + 1) true true a₂ b₂ _)
  have hvalue := readsOff_fieldValue hv true a₃ b₃ hn
  rw [blockFields]
  refine (readsOff_peek _ _).bind ?_
  rw [if_pos rfl]
  exact (readsOff_take _ _).bind
    (hkey.bind (hvalue.bind (hnodes.bind (readsOff_pure _ _))))

end Reading

/-! ## Data of nodes -/

/-- A field of a mapping whose key is a text and whose value stands for a tree, in the depth that
it has. -/
structure SaysField (depth : ℕ) (n : Node × Node) (f : String × Tree) : Prop where
  key : ∃ m, n.1 = .scalar ScalarForm.text.tag f.1.toList m
  value : ∀ bound, depth ≤ bound → n.2.tree bound = .ok f.2

namespace Node

theorem tag_notMem (form : ScalarForm) :
    form.tag ∉ ["seq", "map", "set", "omap", "pairs", "binary"].map coreTag := by
  cases form <;> decide +kernel

theorem isSome_scalarDatum? (tag : String) (s t : List Char) :
    (scalarDatum? tag s).isSome = (scalarDatum? tag t).isSome := by
  simp only [scalarDatum?, apply_ite Option.isSome, Option.isSome_some, Option.isSome_none]

/-- What a scalar stands for. -/
theorem tree_scalarNode {s : List Char × ScalarStyle} {d : Datum} (h : StandsFor s d) (m : Mark)
    {bound : ℕ} (hbound : 2 ≤ bound) :
    (Reading.scalarNode none s.1 s.2 m).tree bound = .ok (.leaf d) := by
  obtain ⟨bound, rfl⟩ := Nat.exists_eq_add_of_le' hbound
  have hnode : Reading.scalarNode none s.1 s.2 m = .scalar (scalarForm s).tag s.1 m := by
    unfold Reading.scalarNode scalarForm
    dsimp only
    split <;> rfl
  let n : Node := .scalar (scalarForm s).tag s.1 m
  have htag : n.tag ∉ ["seq", "map", "set", "omap", "pairs", "binary"].map coreTag :=
    tag_notMem (scalarForm s)
  simp only [List.map_cons, List.map_nil, List.mem_cons, not_or] at htag
  obtain ⟨hseq, hmap, hset, homap, hpairs, hbinary, -⟩ := htag
  have hvalue : scalarDatum? n.tag s.1 = some (.ok d) := h
  obtain ⟨o, ho⟩ : ∃ o, scalarDatum? n.tag [] = some o := by
    refine Option.isSome_iff_exists.mp ?_
    rw [isSome_scalarDatum? _ [] s.1, hvalue]
    rfl
  rw [hnode]
  change n.tree (bound + 2) = _
  unfold tree
  rw [if_neg hseq, if_neg hmap, if_neg hset, if_neg homap, if_neg hpairs, if_neg hbinary, ho]
  have hscalar : scalarText (bound + 1) n = .ok s.1 := rfl
  simp only [bind, Except.bind, hscalar, hvalue]
  rfl

/-! ### Mappings -/

/-- Without the sign for them no fields are taken over. -/
theorem mergedFields_self {fields : List (Node × Node)}
    (h : ∀ f ∈ fields, f.1.tag ≠ ScalarForm.merge.tag) (bound : ℕ) (start : Mark) :
    mergedFields bound start fields = .ok fields := by
  cases bound with
  | zero => rfl
  | succ bound =>
    have hown : fields.filter (fun f ↦ f.1.tag != ScalarForm.merge.tag) = fields :=
      List.filter_eq_self.mpr fun f hf ↦ bne_iff_ne.mpr (h f hf)
    have htaken : fields.filter (fun f ↦ f.1.tag == ScalarForm.merge.tag) = [] :=
      List.filter_eq_nil_iff.mpr fun f hf ↦ by simpa using h f hf
    unfold mergedFields
    dsimp only
    rw [hown, htaken]
    rfl

theorem mapM_of_forall₂ {α β γ ε : Type} {f : α → Except ε β} {g : γ → β} {as : List α}
    {cs : List γ} (h : List.Forall₂ (fun a c ↦ f a = .ok (g c)) as cs) :
    as.mapM f = .ok (cs.map g) := by
  induction h with
  | nil => rfl
  | cons h _ ih =>
    rw [List.mapM_cons, h, ih]
    rfl

/-- A node of a text. -/
theorem tree_text (s : List Char) (m : Mark) {bound : ℕ} (hbound : 2 ≤ bound) :
    (Node.scalar ScalarForm.text.tag s m).tree bound = .ok (.leaf (.text (String.ofList s))) :=
  tree_scalarNode (s := (s, .marked)) rfl m hbound

end Node

/-! ## Keys -/

theorem quotedChar_of_mem {c : Char} (h : c ∈ Lexer.keyChars) : Text.quotedChar '\'' c = [c] := by
  have key : Lexer.keyChars.all (fun c ↦ Text.quotedChar '\'' c == [c]) = true := by
    decide +kernel
  exact beq_iff_eq.mp (List.all_eq_true.mp key c h)

/-- A key is shown between single quotes as it is. -/
theorem shown_key {key : String} (h : Lexer.IsKey key.toList) :
    Datum.shown (.text key) = String.ofList ('\'' :: key.toList ++ ['\'']) := by
  have hquote : key.toList.contains '\'' = false := by
    rw [Bool.eq_false_iff, Ne, List.contains_iff_mem]
    exact fun hmem ↦ absurd (h.subset hmem) (by decide)
  have hself : key.toList.flatMap (Text.quotedChar '\'') = key.toList := by
    rw [List.flatMap_congr fun c hc ↦ quotedChar_of_mem (h.subset hc)]
    exact List.flatMap_singleton' _
  have hquoted : Text.quoted key.toList = '\'' :: key.toList ++ ['\''] := by
    unfold Text.quoted Text.quoteFor
    rw [hquote, Bool.false_and, if_neg Bool.false_ne_true]
    dsimp only
    rw [hself]
  exact congrArg String.ofList hquoted

/-- Two keys of a mapping are the same only if they are equal. -/
theorem sameKey_key {a b : String} (ha : Lexer.IsKey a.toList) (hb : Lexer.IsKey b.toList) :
    Tree.sameKey (.text a) (.text b) = (a == b) := by
  have hinj : (String.ofList ('\'' :: a.toList ++ ['\'']) ==
      String.ofList ('\'' :: b.toList ++ ['\''])) = (a == b) := by
    rw [Bool.eq_iff_iff, beq_iff_eq, beq_iff_eq, String.ofList_inj, List.append_left_inj,
      List.cons_inj_right, String.toList_inj]
  unfold Tree.sameKey
  dsimp only
  rw [shown_key ha, shown_key hb, hinj]
  exact Bool.true_and _

namespace Tree

/-- The fields of a mapping whose keys are texts. -/
def textFields (fields : List (String × Tree)) : List (Datum × Tree) :=
  fields.map fun f ↦ (.text f.1, f.2)

/-- No key comes twice. -/
def DistinctKeys (fields : List (Datum × Tree)) : Prop :=
  fields.Pairwise fun f g ↦ sameKey g.1 f.1 = false

theorem foldl_put {fields pairs : List (Datum × Tree)} (h : DistinctKeys (fields ++ pairs)) :
    pairs.foldl (fun acc f ↦ put acc f.1 f.2) fields = fields ++ pairs := by
  induction pairs generalizing fields with
  | nil => exact (List.append_nil _).symm
  | cons f pairs ih =>
    have hnew : fields.any (sameKey f.1 ·.1) = false := by
      rw [List.any_eq_false]
      intro g hg
      rw [(List.pairwise_append.mp h).2.2 g hg f List.mem_cons_self]
      exact Bool.false_ne_true
    have hput : put fields f.1 f.2 = fields ++ [f] := by
      unfold put
      rw [hnew]
      rfl
    rw [List.foldl_cons, hput, ih (by rwa [List.append_assoc]), List.append_assoc]
    rfl

section Keys

variable {fields : List (String × Tree)} (hkeys : ∀ f ∈ fields, Lexer.IsKey f.1.toList)

include hkeys

theorem distinctKeys_textFields (h : (fields.map Prod.fst).Nodup) :
    DistinctKeys (textFields fields) := by
  refine List.pairwise_map.mpr ((List.pairwise_map.mp h).imp_of_mem fun {f g} hf hg hne ↦ ?_)
  rw [sameKey_key (hkeys g hg) (hkeys f hf)]
  exact beq_false_of_ne hne.symm

theorem field?_textFields_of_notMem {key : String} (hkey : Lexer.IsKey key.toList)
    (h : key ∉ fields.map Prod.fst) : field? (textFields fields) key = none := by
  have hnone : (textFields fields).find? (fun f ↦ sameKey (.text key) f.1) = none := by
    refine List.find?_eq_none.mpr (List.forall_mem_map.mpr fun f hf ↦ ?_)
    have hne : key ≠ f.1 := fun hk ↦ h (hk ▸ List.mem_map_of_mem hf)
    rw [sameKey_key hkey (hkeys f hf), beq_false_of_ne hne]
    exact Bool.false_ne_true
  unfold field?
  rw [hnone]
  rfl

end Keys

theorem field?_self {key : String} (hkey : Lexer.IsKey key.toList) (t : Tree) :
    field? [(.text key, t)] key = some t := by
  have hsame : sameKey (.text key) (.text key) = true :=
    (sameKey_key hkey hkey).trans (beq_self_eq_true key)
  simp [field?, hsame]

end Tree

namespace Node

variable {depth bound : ℕ} {nodes : List (Node × Node)} {fields : List (String × Tree)}

theorem tag_of_mem (h : List.Forall₂ (SaysField depth) nodes fields) :
    ∀ n ∈ nodes, n.1.tag = ScalarForm.text.tag := by
  induction h with
  | nil => exact fun _ h ↦ nomatch h
  | cons hf _ ih =>
    obtain ⟨m, hkey⟩ := hf.key
    exact List.forall_mem_cons.mpr ⟨congrArg Node.tag hkey, ih⟩

theorem keyedTrees_eq (h : List.Forall₂ (SaysField depth) nodes fields)
    (hkeys : Tree.DistinctKeys (Tree.textFields fields)) (hdepth : 2 ≤ depth)
    (hbound : depth ≤ bound) (start : Mark) :
    keyedTrees bound (tree bound) start nodes = .ok (Tree.textFields fields) := by
  have hmerge : ScalarForm.text.tag ≠ ScalarForm.merge.tag := by decide +kernel
  have hdefault : ScalarForm.text.tag ≠ ScalarForm.default.tag := by decide +kernel
  have hcollection : collectionTags.contains ScalarForm.text.tag = false := by decide +kernel
  unfold keyedTrees
  rw [mergedFields_self fun f hf ↦ tag_of_mem h f hf ▸ hmerge]
  change (do
    let pairs ← nodes.mapM _
    return _ : Except TreeFault (List (Datum × Tree))) = _
  rw [mapM_of_forall₂ (g := fun f ↦ (Datum.text f.1, f.2)) (h.imp fun n f hf ↦ ?_)]
  · have hkeys : Tree.DistinctKeys ([] ++ Tree.textFields fields) := hkeys
    exact congrArg Except.ok (Tree.foldl_put hkeys)
  · obtain ⟨m, hkey⟩ := hf.key
    have htext := tree_text f.1.toList m (hdepth.trans hbound)
    rw [String.ofList_toList] at htext
    rw [hkey]
    simp only [Node.tag, hcollection, Bool.false_eq_true, if_false, if_neg hdefault, htext,
      hf.value bound hbound]
    rfl

/-- What a mapping stands for. -/
theorem tree_mapping (h : List.Forall₂ (SaysField depth) nodes fields)
    (hkeys : Tree.DistinctKeys (Tree.textFields fields)) (hdepth : 2 ≤ depth) (m : Mark)
    (hbound : depth + 1 ≤ bound) :
    (Node.mapping (coreTag "map") nodes m).tree bound =
      .ok (.mapping (Tree.textFields fields)) := by
  obtain ⟨bound, rfl⟩ := Nat.exists_eq_succ_of_ne_zero (show bound ≠ 0 by omega)
  let n : Node := .mapping (coreTag "map") nodes m
  have hseq : n.tag ≠ coreTag "seq" :=
    (by decide +kernel : coreTag "map" ≠ coreTag "seq")
  have hmap : n.tag = coreTag "map" := rfl
  have hfields := keyedTrees_eq h hkeys hdepth (Nat.le_of_succ_le_succ hbound) m
  change n.tree (bound + 1) = _
  unfold tree
  rw [if_neg hseq, if_pos hmap]
  change (do return .mapping (← keyedTrees bound (tree bound) m nodes) : Except TreeFault Tree) = _
  rw [hfields]
  rfl

end Node

/-! ## Whole documents -/

open Reading

/-- The fields with their data as trees. -/
def leafFields (fields : Record) : List (String × Tree) :=
  fields.map fun f ↦ (f.1, .leaf f.2)

theorem map_fst_leafFields (fields : Record) :
    (leafFields fields).map Prod.fst = fields.map Prod.fst :=
  List.map_map

theorem distinctKeys_leafFields {fields : Record} (hfields : WritableFields fields)
    (hkeys : (fields.map Prod.fst).Nodup) :
    Tree.DistinctKeys (Tree.textFields (leafFields fields)) := by
  refine Tree.distinctKeys_textFields (List.forall_mem_map.mpr fun f hf ↦ (hfields f hf).1) ?_
  rwa [map_fst_leafFields]

/-- The tokens of a key and its colon. -/
theorem exists_tokens_key {tokens : List Token} {key : List Char} {fs : List TokenForm}
    (h : tokens.map (·.form) = .key :: .scalar key .plain :: .value :: fs) :
    ∃ a₁ b₁ a₂ b₂ a₃ b₃ ts, tokens = ⟨.key, a₁, b₁⟩ :: ⟨.scalar key .plain, a₂, b₂⟩ ::
      ⟨.value, a₃, b₃⟩ :: ts ∧ ts.map (·.form) = fs := by
  obtain ⟨⟨_, a₁, b₁⟩, ts, rfl, rfl, h₁⟩ := List.map_eq_cons_iff.mp h
  obtain ⟨⟨_, a₂, b₂⟩, ts, rfl, rfl, h₂⟩ := List.map_eq_cons_iff.mp h₁
  obtain ⟨⟨_, a₃, b₃⟩, ts, rfl, rfl, h₃⟩ := List.map_eq_cons_iff.mp h₂
  exact ⟨a₁, b₁, a₂, b₂, a₃, b₃, ts, rfl, h₃⟩

theorem scalarNode_key {key : List Char} (h : Lexer.IsKey key) (m : Mark) :
    scalarNode none key .plain m = .scalar ScalarForm.text.tag key m := by
  unfold scalarNode
  rw [if_pos rfl, h.form_eq]

/-- The nodes of the fields of a block. -/
theorem exists_readsOff_blockFields {fields : Record} (hfields : WritableFields fields)
    {tokens : List Token} {fs : List TokenForm}
    (htokens : tokens.map (·.form) = fields.flatMap fieldForms ++ .blockEnd :: fs) {bound : ℕ}
    (hbound : fields.length + 4 ≤ bound) (start : Mark) :
    ∃ nodes rest, ReadsOff (blockFields bound start) tokens nodes rest ∧ rest.map (·.form) = fs ∧
      List.Forall₂ (SaysField 2) nodes (leafFields fields) := by
  induction fields generalizing tokens bound with
  | nil =>
    obtain ⟨⟨_, a, b⟩, rest, rfl, rfl, hrest⟩ := List.map_eq_cons_iff.mp htokens
    obtain ⟨bound, rfl⟩ := Nat.exists_eq_succ_of_ne_zero (show bound ≠ 0 by omega)
    exact ⟨[], rest, readsOff_blockFields_nil bound start a b rest, hrest, .nil⟩
  | cons f fields ih =>
    obtain ⟨⟨hkey, hvalue⟩, hfields⟩ := List.forall_mem_cons.mp hfields
    rw [List.length_cons] at hbound
    obtain ⟨bound, rfl⟩ := Nat.exists_eq_add_of_le' (show 4 ≤ bound by omega)
    obtain ⟨a₁, b₁, a₂, b₂, a₃, b₃, ts, rfl, hts⟩ := exists_tokens_key htokens
    obtain ⟨⟨_, a₄, b₄⟩, ts, rfl, rfl, h₄⟩ := List.map_eq_cons_iff.mp hts
    obtain ⟨nodes, rest, hread, hrest, hnodes⟩ :=
      ih hfields h₄ (show fields.length + 4 ≤ bound + 3 by omega)
    refine ⟨_, rest,
      readsOff_blockFields_cons (by simp) (readsOff_node_scalar bound true true a₄ b₄ ts) hread,
      hrest, .cons ⟨⟨a₂, scalarNode_key hkey a₂⟩, fun bound hbound ↦ ?_⟩ hnodes⟩
    exact Node.tree_scalarNode hvalue.standsFor a₄ hbound

/-- The node of a block of fields. -/
theorem exists_readsOff_block {fields : Record} (hfields : WritableFields fields)
    (hkeys : (fields.map Prod.fst).Nodup) {tokens : List Token}
    {fs : List TokenForm} (htokens : tokens.map (·.form) = blockForms fields ++ fs) {bound : ℕ}
    (hbound : fields.length + 4 ≤ bound) (indentless : Bool) :
    ∃ n rest, ReadsOff (node (bound + 1) true indentless) tokens n rest ∧ rest.map (·.form) = fs ∧
      ∀ depth, 3 ≤ depth → n.tree depth = .ok (.mapping (Tree.textFields (leafFields fields))) := by
  have htokens : tokens.map (·.form) =
      .fieldsStart :: (fields.flatMap fieldForms ++ .blockEnd :: fs) := by
    rw [htokens]
    simp [blockForms]
  obtain ⟨⟨_, a, b⟩, ts, rfl, rfl, hts⟩ := List.map_eq_cons_iff.mp htokens
  obtain ⟨nodes, rest, hread, hrest, hnodes⟩ :=
    exists_readsOff_blockFields hfields hts hbound a
  have hdistinct := distinctKeys_leafFields hfields hkeys
  exact ⟨_, rest, readsOff_node_block bound indentless a b hread, hrest,
    fun depth hdepth ↦ Node.tree_mapping hnodes hdistinct le_rfl a hdepth⟩

/-- The node of a block of fields under a key. -/
theorem exists_readsOff_section {key : String} (hkey : Lexer.IsKey key.toList) {fields : Record}
    (hfields : WritableFields fields) (hkeys : (fields.map Prod.fst).Nodup) {tokens : List Token}
    {fs : List TokenForm} (htokens : tokens.map (·.form) =
      .fieldsStart :: .key :: .scalar key.toList .plain :: .value ::
        (blockForms fields ++ .blockEnd :: fs)) {bound : ℕ}
    (hbound : fields.length + 8 ≤ bound) :
    ∃ n rest, ReadsOff (node (bound + 1) true false) tokens n rest ∧ rest.map (·.form) = fs ∧
      ∀ depth, 4 ≤ depth → n.tree depth =
        .ok (.mapping [(.text key, .mapping (Tree.textFields (leafFields fields)))]) := by
  obtain ⟨bound, rfl⟩ := Nat.exists_eq_add_of_le' (show 4 ≤ bound by omega)
  obtain ⟨⟨_, a₁, b₁⟩, ts, rfl, rfl, h₁⟩ := List.map_eq_cons_iff.mp htokens
  obtain ⟨a₂, b₂, a₃, b₃, a₄, b₄, ts, rfl, hts⟩ := exists_tokens_key h₁
  obtain ⟨n, rest, hnode, hrest, htree⟩ := exists_readsOff_block hfields hkeys hts
    (show fields.length + 4 ≤ bound by omega) true
  obtain ⟨⟨_, a₅, b₅⟩, ts, rfl, rfl, -⟩ := List.map_eq_cons_iff.mp hts
  obtain ⟨⟨_, a₆, b₆⟩, rest, rfl, rfl, hend⟩ := List.map_eq_cons_iff.mp hrest
  have hsays : List.Forall₂ (SaysField 3) [(scalarNode none key.toList .plain a₃, n)]
      [(key, .mapping (Tree.textFields (leafFields fields)))] :=
    .cons ⟨⟨a₃, scalarNode_key hkey a₃⟩, htree⟩ .nil
  refine ⟨_, rest, readsOff_node_block _ false a₁ b₁ (readsOff_blockFields_cons (by simp) hnode
    (readsOff_blockFields_nil _ a₁ a₆ b₆ rest)), hend, fun depth hdepth ↦ ?_⟩
  exact Node.tree_mapping hsays (List.pairwise_singleton _ _) (by decide) a₁ hdepth

/-- A document of one block says what its node stands for. -/
theorem treeOf_of_readsOff {text : List Char} {tokens rest : List Token} {fs : List TokenForm}
    {n : Node} {t : Tree} (htokens : tokensOf text = (tokens, none))
    (hforms : tokens.map (·.form) = .fieldsStart :: fs)
    (hnode : ReadsOff (node (4 * tokens.length + 4) true false) tokens n rest)
    (hrest : rest.map (·.form) = [.streamEnd]) (htree : n.tree (text.length + 2) = .ok t) :
    treeOf text = .ok (some t) := by
  obtain ⟨⟨_, a, b⟩, ts, rfl, rfl, -⟩ := List.map_eq_cons_iff.mp hforms
  obtain ⟨⟨_, c, d⟩, us, rfl, rfl, hus⟩ := List.map_eq_cons_iff.mp hrest
  obtain rfl := List.map_eq_nil_iff.mp hus
  let t₀ : Token := ⟨.fieldsStart, a, b⟩
  have hdocument : ReadsOff (document (4 * (t₀ :: ts).length + 4)) (t₀ :: ts) (some n)
      [⟨.streamEnd, c, d⟩] :=
    (readsOff_peek _ _).bind ((readsOff_peek _ _).bind (hnode.bind rfl))
  have hnodeOf : nodeOf text = .ok (some n) := by
    unfold nodeOf
    rw [htokens]
    change ((document (4 * (t₀ :: ts).length + 4)).run (ahead (t₀ :: ts))).map _ = _
    rw [show StateT.run _ _ = _ from hdocument]
    rfl
  unfold treeOf
  rw [hnodeOf]
  dsimp only
  rw [htree]
  rfl

theorem length_lt_blockForms (fields : Record) : fields.length < (blockForms fields).length := by
  have hfields : fields.length ≤ (fields.flatMap fieldForms).length := by
    induction fields with
    | nil => exact Nat.le_refl 0
    | cons f fields ih =>
      have hlength : (fieldForms f).length = 4 := rfl
      rw [List.flatMap_cons, List.length_append, List.length_cons]
      omega
  unfold blockForms
  rw [List.length_cons, List.length_append]
  omega

variable {layout : Layout} {indent : ℕ} {fields : Record}

/-- Fields that make up a document are read as they were written. -/
theorem treeOf_writeFields (hne : fields ≠ []) (hfields : WritableFields fields)
    (hkeys : (fields.map Prod.fst).Nodup) (hindent : layout.indent ≠ 0)
    (hwidth : layout.indent < layout.width) :
    treeOf (writeFields layout 0 fields) =
      .ok (some (.mapping (Tree.textFields (leafFields fields)))) := by
  obtain ⟨tokens, htokens, hforms⟩ :=
    exists_tokensOf_writeFields hne hfields hindent hwidth
  have hlength : fields.length + 1 ≤ tokens.length := by
    have hlength := congrArg List.length hforms
    rw [List.length_map, List.length_append, List.length_singleton] at hlength
    have hblock := length_lt_blockForms fields
    omega
  obtain ⟨n, rest, hnode, hrest, htree⟩ := exists_readsOff_block hfields hkeys hforms
    (show fields.length + 4 ≤ 4 * tokens.length + 3 by omega) false
  refine treeOf_of_readsOff htokens hforms hnode hrest (htree _ ?_)
  have htext := length_fieldLines layout 0 fields
  have hpos := List.length_pos_iff.mpr hne
  rw [writeFields_eq, List.length_append]
  omega

/-- Fields under a key are read as they were written. -/
theorem treeOf_section {key : String} (hkey : Lexer.IsKey key.toList) (hne : fields ≠ [])
    (hfields : WritableFields fields) (hkeys : (fields.map Prod.fst).Nodup) (hindent : indent ≠ 0)
    (hlayout : indent < layout.indent) (hwidth : layout.indent < layout.width) :
    treeOf (key.toList ++ [':', '\n'] ++ writeFields layout indent fields) =
      .ok (some (.mapping [(.text key, .mapping (Tree.textFields (leafFields fields)))])) := by
  obtain ⟨tokens, htokens, hforms⟩ :=
    exists_tokensOf_section hkey hne hfields hindent hlayout hwidth
  have hlength : fields.length + 6 ≤ tokens.length := by
    have hlength := congrArg List.length hforms
    simp only [List.length_map, List.length_append, List.length_cons, List.length_nil] at hlength
    have hblock := length_lt_blockForms fields
    omega
  obtain ⟨n, rest, hnode, hrest, htree⟩ := exists_readsOff_section hkey hfields hkeys hforms
    (show fields.length + 8 ≤ 4 * tokens.length + 3 by omega)
  refine treeOf_of_readsOff htokens hforms hnode hrest (htree _ ?_)
  simp only [List.length_append, List.length_cons]
  omega

end WaveNotebook.Document
