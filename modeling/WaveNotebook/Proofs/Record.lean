import Mathlib.Data.List.Nodup
import WaveNotebook.Datum

/-!
# Records with one more field

`Record.put` keeps the order of the keys: a new key comes last, and a key that is there keeps
its place. What is looked up under another key does not change.
-/

namespace WaveNotebook.Record

variable {α : Type}

/-- The keys of a record in their order. -/
def keys (fields : List (String × α)) : List String :=
  fields.map (·.1)

theorem mem_of_lookup {fields : List (String × α)} {key : String} {value : α}
    (h : fields.lookup key = some value) : (key, value) ∈ fields := by
  obtain ⟨before, behind, rfl, -⟩ := List.lookup_eq_some_iff.mp h
  exact List.mem_append_right _ List.mem_cons_self

theorem any_key_iff {fields : List (String × α)} {key : String} :
    fields.any (·.1 == key) = true ↔ key ∈ keys fields := by
  simp [keys, List.any_eq_true]

theorem keys_put (fields : List (String × α)) (key : String) (value : α) :
    keys (put fields key value) =
      if key ∈ keys fields then keys fields else keys fields ++ [key] := by
  unfold put
  by_cases h : key ∈ keys fields
  · rw [if_pos (any_key_iff.mpr h), if_pos h]
    unfold keys
    rw [List.map_map]
    apply List.map_congr_left
    intro field _
    by_cases hfield : field.1 = key
    · simp [hfield]
    · simp [hfield]
  · rw [if_neg (fun hany ↦ h (any_key_iff.mp hany)), if_neg h]
    simp [keys]

theorem mem_keys_put {fields : List (String × α)} {key k : String} {value : α} :
    k ∈ keys (put fields key value) ↔ k = key ∨ k ∈ keys fields := by
  rw [keys_put]
  split
  · constructor
    · exact Or.inr
    · rintro (rfl | hk)
      · assumption
      · exact hk
  · simp [or_comm]

theorem nodup_keys_put {fields : List (String × α)} (h : (keys fields).Nodup) (key : String)
    (value : α) : (keys (put fields key value)).Nodup := by
  rw [keys_put]
  split
  · exact h
  · rename_i hkey
    rw [List.nodup_append]
    refine ⟨h, by simp, ?_⟩
    intro k hk k' hk' heq
    rw [List.mem_singleton] at hk'
    exact hkey (hk' ▸ heq ▸ hk)

/-- The fields of a record with one more field are that field and fields from before. -/
theorem mem_put {fields : List (String × α)} {key : String} {value : α} {p : String × α}
    (h : p ∈ put fields key value) : p = (key, value) ∨ p ∈ fields := by
  unfold put at h
  split at h
  · obtain ⟨field, hfield, rfl⟩ := List.mem_map.mp h
    split
    · exact .inl rfl
    · exact .inr hfield
  · obtain h | h := List.mem_append.mp h
    · exact .inr h
    · exact .inl (List.mem_singleton.mp h)

theorem lookup_put_self (fields : List (String × α)) (key : String) (value : α) :
    (put fields key value).lookup key = some value := by
  unfold put
  split
  · rename_i hany
    have hkey := any_key_iff.mp hany
    clear hany
    induction fields with
    | nil => simp [keys] at hkey
    | cons field fields ih =>
      by_cases hfield : field.1 = key
      · simp [hfield]
      · have hrest : key ∈ keys fields := by
          simpa [keys, Ne.symm hfield] using hkey
        rw [List.map_cons, if_neg (by simpa using hfield), List.lookup_cons,
          beq_false_of_ne (Ne.symm hfield)]
        exact ih hrest
  · rename_i hany
    have hnone : fields.lookup key = none := by
      rw [List.lookup_eq_none_iff]
      intro field hfield
      rw [bne_iff_ne]
      intro heq
      exact hany (any_key_iff.mpr (List.mem_map.mpr ⟨field, hfield, heq.symm⟩))
    rw [List.lookup_append, hnone, Option.none_or, List.lookup_cons_self]

theorem lookup_put_of_ne {key k : String} (h : k ≠ key) (fields : List (String × α)) (value : α) :
    (put fields key value).lookup k = fields.lookup k := by
  unfold put
  split
  · rename_i hany
    clear hany
    induction fields with
    | nil => rfl
    | cons field fields ih =>
      obtain ⟨k', v⟩ := field
      rw [List.map_cons, List.lookup_cons, List.lookup_cons, ih]
      by_cases hfield : k' = key
      · simp [hfield, beq_false_of_ne h]
      · simp [hfield]
  · rw [List.lookup_append, List.lookup_cons, beq_false_of_ne h]
    simp

/-! ## Records of pairs -/

/-- The record of pairs with repeated keys: a key has the place of its first pair and the value of
its last one. -/
def ofPairs (pairs : List (String × α)) : List (String × α) :=
  (keys pairs).eraseDups.filterMap fun key ↦ (pairs.reverse.lookup key).map (key, ·)

theorem exists_lookup_of_mem_keys {fields : List (String × α)} {key : String}
    (h : key ∈ keys fields) : ∃ value, fields.lookup key = some value := by
  rw [← Option.isSome_iff_exists, ← Option.ne_none_iff_isSome, Ne, List.lookup_eq_none_iff]
  intro hnone
  obtain ⟨field, hfield, rfl⟩ := List.mem_map.mp h
  simpa using hnone field hfield

theorem exists_lookup_reverse {pairs : List (String × α)} {key : String} (h : key ∈ keys pairs) :
    ∃ value, pairs.reverse.lookup key = some value :=
  exists_lookup_of_mem_keys (by simpa [keys] using h)

theorem mem_keys_ofPairs {pairs : List (String × α)} {key : String} :
    key ∈ keys (ofPairs pairs) ↔ key ∈ keys pairs := by
  unfold ofPairs
  constructor
  · intro h
    obtain ⟨field, hfield, rfl⟩ := List.mem_map.mp h
    obtain ⟨k, hk, hvalue⟩ := List.mem_filterMap.mp hfield
    obtain ⟨value, -, rfl⟩ := Option.map_eq_some_iff.mp hvalue
    exact List.mem_eraseDups.mp hk
  · intro h
    obtain ⟨value, hvalue⟩ := exists_lookup_reverse h
    refine List.mem_map.mpr ⟨(key, value), List.mem_filterMap.mpr ⟨key, ?_, ?_⟩, rfl⟩
    · exact List.mem_eraseDups.mpr h
    · rw [hvalue, Option.map_some]

theorem mem_of_mem_ofPairs {pairs : List (String × α)} {field : String × α}
    (h : field ∈ ofPairs pairs) : field ∈ pairs := by
  obtain ⟨key, -, hvalue⟩ := List.mem_filterMap.mp h
  obtain ⟨value, hlookup, rfl⟩ := Option.map_eq_some_iff.mp hvalue
  exact List.mem_reverse.mp (mem_of_lookup hlookup)

/-- One more pair is one more field. -/
theorem ofPairs_concat (pairs : List (String × α)) (key : String) (value : α) :
    ofPairs (pairs ++ [(key, value)]) = put (ofPairs pairs) key value := by
  have hlookup : ∀ k, (pairs ++ [(key, value)]).reverse.lookup k =
      if k = key then some value else pairs.reverse.lookup k := by
    intro k
    rw [List.reverse_append, List.reverse_singleton, List.singleton_append, List.lookup_cons]
    by_cases hk : k = key
    · rw [if_pos hk, beq_iff_eq.mpr hk]
    · rw [if_neg hk, beq_false_of_ne hk]
  have hkeys : keys (pairs ++ [(key, value)]) = keys pairs ++ [key] := by simp [keys]
  unfold put
  by_cases hkey : key ∈ keys pairs
  · rw [if_pos (any_key_iff.mpr (mem_keys_ofPairs.mpr hkey))]
    have hdups : (keys pairs ++ [key]).eraseDups = (keys pairs).eraseDups := by
      rw [List.eraseDups_append]
      simp [List.removeAll, hkey]
    unfold ofPairs
    rw [hkeys, hdups, List.map_filterMap]
    refine List.filterMap_congr fun k hk ↦ ?_
    obtain ⟨old, hold⟩ := exists_lookup_reverse (List.mem_eraseDups.mp hk)
    rw [hlookup, hold]
    by_cases heq : k = key
    · simp [heq]
    · simp [heq]
  · rw [if_neg fun hany ↦ hkey (mem_keys_ofPairs.mp (any_key_iff.mp hany))]
    have hdups : (keys pairs ++ [key]).eraseDups = (keys pairs).eraseDups ++ [key] := by
      rw [List.eraseDups_append]
      simp [List.removeAll, hkey, List.eraseDups_cons]
    unfold ofPairs
    rw [hkeys, hdups, List.filterMap_append]
    congr 1
    · refine List.filterMap_congr fun k hk ↦ ?_
      have hne : k ≠ key := by
        rintro rfl
        exact hkey (List.mem_eraseDups.mp hk)
      rw [hlookup, if_neg hne]
    · simp

/-! ## Records of named values -/

section

variable {value? : String → Option α} {names : List String} {name : String} {x : α}

/-- The names that have a value, each once and in the order of their first places. -/
def ofNames (value? : String → Option α) (names : List String) : List (String × α) :=
  names.eraseDups.filterMap fun name ↦ (value? name).map (name, ·)

theorem mem_ofNames {field : String × α} :
    field ∈ ofNames value? names ↔ field.1 ∈ names ∧ value? field.1 = some field.2 := by
  unfold ofNames
  rw [List.mem_filterMap]
  constructor
  · rintro ⟨name, hname, hfield⟩
    obtain ⟨x, hx, rfl⟩ := Option.map_eq_some_iff.mp hfield
    exact ⟨List.mem_eraseDups.mp hname, hx⟩
  · rintro ⟨hname, hvalue⟩
    exact ⟨field.1, List.mem_eraseDups.mpr hname, by rw [hvalue, Option.map_some]⟩

theorem mem_keys_ofNames : name ∈ keys (ofNames value? names) ↔
    name ∈ names ∧ (value? name).isSome = true := by
  unfold keys
  rw [List.mem_map, Option.isSome_iff_exists]
  constructor
  · rintro ⟨field, hfield, rfl⟩
    obtain ⟨hname, hvalue⟩ := mem_ofNames.mp hfield
    exact ⟨hname, _, hvalue⟩
  · rintro ⟨hname, x, hx⟩
    exact ⟨(name, x), mem_ofNames.mpr ⟨hname, hx⟩, rfl⟩

/-- A field that is there already. -/
theorem put_eq_self {fields : List (String × α)} (hkey : name ∈ keys fields)
    (hvalue : ∀ field ∈ fields, field.1 = name → field.2 = x) : put fields name x = fields := by
  unfold put
  rw [if_pos (any_key_iff.mpr hkey)]
  refine (List.map_congr_left fun field hfield ↦ ?_).trans (List.map_id fields)
  split
  · rename_i heq
    rw [← hvalue field hfield (beq_iff_eq.mp heq), ← beq_iff_eq.mp heq]
    rfl
  · rfl

/-- One more name puts its value, if it has one. -/
theorem ofNames_concat (value? : String → Option α) (names : List String) (name : String) :
    ofNames value? (names ++ [name]) =
      (value? name).elim (ofNames value? names) (put (ofNames value? names) name) := by
  by_cases hname : name ∈ names
  · have hsame : ofNames value? (names ++ [name]) = ofNames value? names := by
      unfold ofNames
      rw [List.eraseDups_append]
      simp [List.removeAll, hname]
    rw [hsame]
    cases hvalue : value? name with
    | none => rfl
    | some x =>
      have hkey : name ∈ keys (ofNames value? names) :=
        mem_keys_ofNames.mpr ⟨hname, by rw [hvalue, Option.isSome_some]⟩
      refine (put_eq_self hkey ?_).symm
      rintro ⟨_, y⟩ hfield rfl
      exact Option.some.inj ((mem_ofNames.mp hfield).2.symm.trans hvalue)
  · have hmore : ofNames value? (names ++ [name]) =
        ofNames value? names ++ ((value? name).map (name, ·)).toList := by
      unfold ofNames
      rw [List.eraseDups_append]
      cases hvalue : value? name <;>
        simp [List.removeAll, hname, List.eraseDups_cons, List.filterMap_append, hvalue]
    rw [hmore]
    cases hvalue : value? name with
    | none => simp
    | some x =>
      have hkey : name ∉ keys (ofNames value? names) := fun h ↦ hname (mem_keys_ofNames.mp h).1
      rw [Option.elim_some, put, if_neg fun hany ↦ hkey (any_key_iff.mp hany)]
      rfl

end

/-! ## Records in another order -/

section

variable {fields fields' : List (String × α)} {key : String}

/-- Fields under one key have one value. -/
def SingleValued (fields : List (String × α)) : Prop :=
  ∀ f ∈ fields, ∀ g ∈ fields, f.1 = g.1 → f.2 = g.2

theorem singleValued_of_nodup (h : (keys fields).Nodup) : SingleValued fields :=
  fun _ hf _ hg heq ↦ congrArg Prod.snd (List.inj_on_of_nodup_map h hf hg heq)

theorem lookup_eq_some_iff_mem (h : SingleValued fields) {value : α} :
    fields.lookup key = some value ↔ (key, value) ∈ fields := by
  constructor
  · exact mem_of_lookup
  · intro hmem
    obtain ⟨value', hlookup⟩ := exists_lookup_of_mem_keys (List.mem_map.mpr ⟨_, hmem, rfl⟩)
    have hvalue : value' = value := h _ (mem_of_lookup hlookup) _ hmem rfl
    rw [hlookup, hvalue]

theorem lookup_eq_of_perm (hperm : fields.Perm fields') (h : SingleValued fields) (key : String) :
    fields.lookup key = fields'.lookup key := by
  have h' : SingleValued fields' :=
    fun f hf g hg ↦ h f (hperm.mem_iff.mpr hf) g (hperm.mem_iff.mpr hg)
  ext value
  rw [lookup_eq_some_iff_mem h, lookup_eq_some_iff_mem h', hperm.mem_iff]

/-- Of the pairs that are put one after the other the last one under a key counts. -/
theorem lookup_foldl_put (pairs fields : List (String × α)) (key : String) :
    (pairs.foldl (fun fields pair ↦ put fields pair.1 pair.2) fields).lookup key =
      (pairs.reverse.lookup key).or (fields.lookup key) := by
  induction pairs generalizing fields with
  | nil => rfl
  | cons pair pairs ih =>
    rw [List.foldl_cons, ih, List.reverse_cons, List.lookup_append, Option.or_assoc]
    congr 1
    by_cases hkey : key = pair.1
    · rw [hkey, lookup_put_self, List.lookup_cons_self, Option.some_or]
    · rw [lookup_put_of_ne hkey, List.lookup_cons, beq_false_of_ne hkey]
      rfl

/-- The same fields, each key once, in whatever order. -/
structure SameFields (fields fields' : List (String × α)) : Prop where
  perm : fields.Perm fields'
  nodup : (keys fields).Nodup

namespace SameFields

variable (h : SameFields fields fields')

include h

theorem lookup_eq (key : String) : fields.lookup key = fields'.lookup key :=
  lookup_eq_of_perm h.perm (singleValued_of_nodup h.nodup) key

theorem forall_keys_iff {P : String → Prop} :
    (∀ key ∈ keys fields, P key) ↔ ∀ key ∈ keys fields', P key :=
  forall_congr' fun _ ↦ imp_congr_left (h.perm.map _).mem_iff

end SameFields

end

end WaveNotebook.Record
