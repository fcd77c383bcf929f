import Mathlib.Data.List.Nodup
import WaveNotebook.Method.Standard

/-!
# Runs of registrations

A registration that is well formed and new for its kind and name puts one entry at the end of a
table, and every other one is refused. So a table holds the entries of the accepted registrations
in their order and nothing else, and names, look-ups and calls can be read off the accepted
registrations alone. The standard table is the one that the registrations of the standard methods
make of the empty table.
-/

namespace WaveNotebook

/-- What a registration asks for. -/
structure Registration where
  kind : ValueKind
  name : Datum
  handler : Option Handler
  least : Int
  most : Option Int

namespace Registration

/-- Whether a registration is one of the given name for the given kind. -/
def isFor (r : Registration) (kind : ValueKind) (name : String) : Bool :=
  r.kind == kind && r.name.isText name

/-- A registration that is well formed asks for an entry. -/
structure Asks (r : Registration) (e : ValueKind × Method) : Prop where
  kind : r.kind = e.1
  name : r.name = .text e.2.name
  handler : r.handler = some e.2.handler
  least : r.least = e.2.least
  most : r.most.getD r.least = e.2.most
  receiver : e.1 ∈ MethodTable.receiverKinds
  identifier : Text.isIdentifier e.2.name.toList = true
  arity : e.2.least ≤ e.2.most

theorem Asks.isFor_eq {r : Registration} {e : ValueKind × Method} (h : r.Asks e)
    (kind : ValueKind) (name : String) :
    r.isFor kind name = (e.1 == kind && e.2.name == name) := by
  rw [isFor, h.kind, h.name]
  rfl

/-- The registration that asks for an entry. -/
def ofEntry (e : ValueKind × Method) : Registration :=
  ⟨e.1, .text e.2.name, some e.2.handler, e.2.least, some e.2.most⟩

end Registration

namespace MethodTable

def submit (t : MethodTable) (r : Registration) : Except Fault MethodTable :=
  t.register r.kind r.name r.handler r.least r.most

/-- A registration is accepted if it is well formed and there is no entry yet for its kind and
name; then its entry is the last one of the table. -/
theorem submit_eq_ok_iff {t t' : MethodTable} {r : Registration} :
    t.submit r = .ok t' ↔
      ∃ e, r.Asks e ∧ t.find? e.1 e.2.name = none ∧ t' = ⟨t.entries ++ [e]⟩ := by
  obtain ⟨kind, name, handler, least, most⟩ := r
  constructor
  · intro h
    unfold submit register at h
    dsimp only at h
    split at h
    · cases h
    · rename_i hkind
      split at h
      · rename_i s
        split at h
        · cases h
        · rename_i hname
          split at h
          · cases h
          · rename_i f
            split at h
            · cases h
            · rename_i hfind
              split at h
              · cases h
              · rename_i harity
                cases h
                refine ⟨_, ⟨rfl, rfl, rfl, rfl, rfl, ?_, ?_, ?_⟩, ?_, rfl⟩
                · simpa using hkind
                · simpa using hname
                · exact Int.not_lt.mp harity
                · simpa using hfind
      · cases h
  · rintro ⟨e, ⟨rfl, rfl, rfl, rfl, hmost, hreceiver, hidentifier, harity⟩, hfind, rfl⟩
    dsimp only at hmost
    unfold submit register
    simp [hreceiver, hidentifier, hfind, hmost, harity]

/-- The table behind a registration, which may have been refused. -/
def after (t : MethodTable) (r : Registration) : MethodTable :=
  match t.submit r with
  | .ok t' => t'
  | .error _ => t

/-- The table behind registrations, the first one first. -/
def afterAll (t : MethodTable) (rs : List Registration) : MethodTable :=
  rs.foldl after t

/-- The registrations that are accepted when they follow each other. -/
def accepted (t : MethodTable) : List Registration → List Registration
  | [] => []
  | r :: rs =>
    match t.submit r with
    | .ok t' => r :: t'.accepted rs
    | .error _ => t.accepted rs

theorem afterAll_append (t : MethodTable) (rs more : List Registration) :
    t.afterAll (rs ++ more) = (t.afterAll rs).afterAll more :=
  List.foldl_append

section

variable {t t' : MethodTable} {r : Registration} {fault : Fault}

theorem after_of_error (h : t.submit r = .error fault) : t.after r = t := by
  rw [after, h]

theorem after_of_ok (h : t.submit r = .ok t') : t.after r = t' := by
  rw [after, h]

theorem accepted_cons_of_error (h : t.submit r = .error fault) (rs : List Registration) :
    t.accepted (r :: rs) = t.accepted rs := by
  rw [accepted, h]

theorem accepted_cons_of_ok (h : t.submit r = .ok t') (rs : List Registration) :
    t.accepted (r :: rs) = r :: t'.accepted rs := by
  rw [accepted, h]

end

theorem afterAll_cons (t : MethodTable) (r : Registration) (rs : List Registration) :
    t.afterAll (r :: rs) = (t.after r).afterAll rs :=
  rfl

theorem accepted_append (t : MethodTable) (rs more : List Registration) :
    t.accepted (rs ++ more) = t.accepted rs ++ (t.afterAll rs).accepted more := by
  induction rs generalizing t with
  | nil => rfl
  | cons r rs ih =>
    rw [List.cons_append, afterAll_cons]
    cases h : t.submit r with
    | error fault =>
      rw [accepted_cons_of_error h, accepted_cons_of_error h, after_of_error h, ih]
    | ok t' =>
      rw [accepted_cons_of_ok h, accepted_cons_of_ok h, after_of_ok h, ih, List.cons_append]

/-! ## The entries behind a run -/

def keys (t : MethodTable) : List (ValueKind × String) :=
  t.entries.map fun e ↦ (e.1, e.2.name)

theorem find?_eq_none_iff {t : MethodTable} {kind : ValueKind} {name : String} :
    t.find? kind name = none ↔ (kind, name) ∉ t.keys := by
  unfold find? keys
  rw [Option.map_eq_none_iff, List.find?_eq_none, List.mem_map]
  constructor
  · rintro hnone ⟨e, he, heq⟩
    cases heq
    exact hnone e he (by simp)
  · intro hfresh e he hkey
    simp only [Bool.and_eq_true, beq_iff_eq] at hkey
    exact hfresh ⟨e, he, by rw [hkey.1, hkey.2]⟩

theorem mem_entries_of_find? {t : MethodTable} {kind : ValueKind} {name : String} {m : Method}
    (h : t.find? kind name = some m) : (kind, m) ∈ t.entries := by
  obtain ⟨e, he, rfl⟩ := Option.map_eq_some_iff.mp h
  have hkind : e.1 = kind := by
    have hkey := List.find?_some he
    simp only [Bool.and_eq_true, beq_iff_eq] at hkey
    exact hkey.1
  rw [← hkind]
  exact List.mem_of_find?_eq_some he

/-- The entries of the accepted registrations come behind those of the table. -/
theorem entries_afterAll (t : MethodTable) (rs : List Registration) :
    ∃ es, List.Forall₂ Registration.Asks (t.accepted rs) es ∧
      (t.afterAll rs).entries = t.entries ++ es := by
  induction rs generalizing t with
  | nil => exact ⟨[], .nil, (List.append_nil _).symm⟩
  | cons r rs ih =>
    rw [afterAll_cons]
    cases h : t.submit r with
    | error fault =>
      rw [accepted_cons_of_error h, after_of_error h]
      exact ih t
    | ok t' =>
      rw [accepted_cons_of_ok h, after_of_ok h]
      obtain ⟨e, hasks, -, rfl⟩ := submit_eq_ok_iff.mp h
      obtain ⟨es, hes, hentries⟩ := ih ⟨t.entries ++ [e]⟩
      refine ⟨e :: es, .cons hasks hes, ?_⟩
      rw [hentries, List.append_assoc, List.singleton_append]

theorem nodup_keys_afterAll {t : MethodTable} (ht : t.keys.Nodup) (rs : List Registration) :
    (t.afterAll rs).keys.Nodup := by
  induction rs generalizing t with
  | nil => exact ht
  | cons r rs ih =>
    rw [afterAll_cons]
    apply ih
    cases h : t.submit r with
    | error fault => rwa [after_of_error h]
    | ok t' =>
      rw [after_of_ok h]
      obtain ⟨e, -, hfind, rfl⟩ := submit_eq_ok_iff.mp h
      rw [find?_eq_none_iff] at hfind
      unfold keys
      rw [List.map_append, List.map_singleton, List.nodup_append]
      refine ⟨ht, List.nodup_singleton _, fun key hkey key' hkey' ↦ ?_⟩
      rw [List.mem_singleton.mp hkey']
      exact ne_of_mem_of_not_mem hkey hfind

/-- Well-formed registrations of different keys are all accepted. -/
theorem afterAll_map_ofEntry {t : MethodTable} {es : List (ValueKind × Method)}
    (hasks : ∀ e ∈ es, (Registration.ofEntry e).Asks e)
    (hkeys : (keys ⟨t.entries ++ es⟩).Nodup) :
    t.afterAll (es.map Registration.ofEntry) = ⟨t.entries ++ es⟩ := by
  induction es generalizing t with
  | nil => exact congrArg MethodTable.mk (List.append_nil _).symm
  | cons e es ih =>
    -- the key of the first entry is no other entry's, so that it is still new
    have hfind : t.find? e.1 e.2.name = none := by
      rw [find?_eq_none_iff]
      intro hmem
      unfold keys at hkeys hmem
      rw [List.map_append, List.map_cons, List.nodup_append] at hkeys
      exact hkeys.2.2 _ hmem _ List.mem_cons_self rfl
    have hsubmit : t.submit (.ofEntry e) = .ok ⟨t.entries ++ [e]⟩ :=
      submit_eq_ok_iff.mpr ⟨e, hasks e List.mem_cons_self, hfind, rfl⟩
    have happend : t.entries ++ e :: es = t.entries ++ [e] ++ es := by
      rw [List.append_assoc, List.singleton_append]
    rw [happend] at hkeys ⊢
    rw [List.map_cons, afterAll_cons, after_of_ok hsubmit]
    exact ih (fun e' he' ↦ hasks e' (List.mem_cons_of_mem _ he')) hkeys

/-- The registrations of the standard methods. -/
def standardRegistrations : List Registration :=
  standard.entries.map Registration.ofEntry

theorem afterAll_standardRegistrations : empty.afterAll standardRegistrations = standard := by
  have hformed : ∀ e ∈ standard.entries, e.1 ∈ receiverKinds ∧
      Text.isIdentifier e.2.name.toList = true ∧ e.2.least ≤ e.2.most := by
    decide +kernel
  have hkeys : standard.keys.Nodup := by decide +kernel
  refine afterAll_map_ofEntry (fun e he ↦ ?_) hkeys
  obtain ⟨hreceiver, hidentifier, harity⟩ := hformed e he
  exact ⟨rfl, rfl, rfl, rfl, rfl, hreceiver, hidentifier, harity⟩

/-! ## What a table knows of the accepted registrations -/

section

variable {done : List Registration} {es : List (ValueKind × Method)}
  (h : List.Forall₂ Registration.Asks done es)

include h

/-- The entry that is found is the one of the first registration of the name for the kind. -/
theorem find?_of_forall₂ (kind : ValueKind) (name : String) :
    Option.Rel (fun r m ↦ r.Asks (kind, m)) (done.find? (·.isFor kind name))
      (find? ⟨es⟩ kind name) := by
  unfold find?
  induction h with
  | nil => exact .none
  | @cons r e _ _ hasks _ ih =>
    rw [List.find?_cons, List.find?_cons, hasks.isFor_eq]
    by_cases hkey : (e.1 == kind && e.2.name == name) = true
    · rw [hkey]
      obtain ⟨k, m⟩ := e
      obtain rfl : k = kind := by simpa using (Bool.and_eq_true_iff.mp hkey).1
      exact .some hasks
    · rw [Bool.not_eq_true] at hkey
      rw [hkey]
      exact ih

theorem mem_keys_iff_of_forall₂ (kind : ValueKind) (name : String) :
    (kind, name) ∈ keys ⟨es⟩ ↔ ∃ r ∈ done, r.isFor kind name = true := by
  induction h with
  | nil => simp [keys]
  | @cons r e _ es hasks _ ih =>
    have hkey : (kind, name) = (e.1, e.2.name) ↔ r.isFor kind name = true := by
      rw [hasks.isFor_eq, Bool.and_eq_true, beq_iff_eq, beq_iff_eq, Prod.mk.injEq, eq_comm,
        @eq_comm _ name]
    change (kind, name) ∈ (e.1, e.2.name) :: keys ⟨es⟩ ↔ _
    rw [List.mem_cons, List.exists_mem_cons_iff, ih, hkey]

theorem arity_of_forall₂ : ∀ e ∈ es, e.2.least ≤ e.2.most := by
  induction h with
  | nil => exact fun _ he ↦ nomatch he
  | cons hasks _ ih => exact List.forall_mem_cons.mpr ⟨hasks.arity, ih⟩

end

section

variable {t : MethodTable} {kind : ValueKind}

theorem mem_names_iff {name : String} : name ∈ t.names kind ↔ (kind, name) ∈ t.keys := by
  simp [names, keys]

theorem pairwise_names : (t.names kind).Pairwise (· ≤ ·) := by
  have htrans : ∀ a b c : String, decide (a ≤ b) = true → decide (b ≤ c) = true →
      decide (a ≤ c) = true := by
    simp only [decide_eq_true_eq]
    exact fun a b c ↦ String.le_trans
  have htotal : ∀ a b : String, (decide (a ≤ b) || decide (b ≤ a)) = true := by
    simp only [Bool.or_eq_true, decide_eq_true_eq]
    exact String.le_total
  exact (List.pairwise_mergeSort htrans htotal _).imp of_decide_eq_true

/-- The key of an entry and its kind leave no two entries of one kind with the same name. -/
theorem nodup_names (ht : t.keys.Nodup) : (t.names kind).Nodup := by
  unfold names
  rw [(List.mergeSort_perm _ _).nodup_iff]
  unfold keys List.Nodup at ht
  unfold List.Nodup
  rw [List.pairwise_map] at ht ⊢
  refine (ht.filter _).imp_of_mem ?_
  intro e e' he he' hne hname
  have hkind : e.1 = kind := by simpa using (List.mem_filter.mp he).2
  have hkind' : e'.1 = kind := by simpa using (List.mem_filter.mp he').2
  exact hne (by rw [hkind, hkind', hname])

end

/-- What a table knows of the registrations that it has accepted, the first one first. -/
structure Records (t : MethodTable) (done : List Registration) : Prop where
  sorted : ∀ kind, (t.names kind).Pairwise (· ≤ ·)
  nodup : ∀ kind, (t.names kind).Nodup
  mem_names : ∀ kind name, name ∈ t.names kind ↔ ∃ r ∈ done, r.isFor kind name = true
  /-- A look-up finds what the first registration of the name for the kind has asked for. -/
  found : ∀ receiver kind name r, receiver.kind = .ok kind →
    done.find? (·.isFor kind name) = some r →
      ∃ m, r.Asks (kind, m) ∧ (kind, m) ∈ t.entries ∧ t.lookup receiver name = .ok m
  /-- A name that has not been registered for the kind is unknown, whatever the other kinds have. -/
  unknown : ∀ receiver kind name, receiver.kind = .ok kind →
    done.find? (·.isFor kind name) = none →
    t.lookup receiver name = .error (.name (.methodName name kind.name))
  arity : ∀ e ∈ t.entries, e.2.least ≤ e.2.most

theorem lookup_of_kind {receiver : Argument} {kind : ValueKind} (h : receiver.kind = .ok kind)
    (t : MethodTable) (name : String) :
    t.lookup receiver name =
      match t.find? kind name with
      | some m => .ok m
      | none => .error (.name (.methodName name kind.name)) := by
  rw [lookup, h]
  rfl

/-- A look-up by a datum that is a text is the look-up by the text. -/
@[simp]
theorem lookupDatum_text (t : MethodTable) (receiver : Argument) (name : String) :
    t.lookupDatum receiver (.text name) = t.lookup receiver name :=
  rfl

theorem records_of_forall₂ {t : MethodTable} {done : List Registration}
    (h : List.Forall₂ Registration.Asks done t.entries) (ht : t.keys.Nodup) : t.Records done where
  sorted _ := pairwise_names
  nodup _ := nodup_names ht
  mem_names kind name := mem_names_iff.trans (mem_keys_iff_of_forall₂ h kind name)
  found receiver kind name r hkind hr := by
    have hfind := find?_of_forall₂ h kind name
    rw [hr] at hfind
    rw [lookup_of_kind hkind]
    cases hm : t.find? kind name with
    | none =>
      rw [hm] at hfind
      cases hfind
    | some m =>
      rw [hm] at hfind
      cases hfind with
      | some hasks => exact ⟨m, hasks, mem_entries_of_find? hm, rfl⟩
  unknown receiver kind name hkind hr := by
    have hfind := find?_of_forall₂ h kind name
    rw [hr] at hfind
    rw [lookup_of_kind hkind]
    cases hm : t.find? kind name with
    | none => rfl
    | some m =>
      rw [hm] at hfind
      cases hfind
  arity := arity_of_forall₂ h

theorem records_afterAll (rs : List Registration) :
    (empty.afterAll rs).Records (empty.accepted rs) := by
  obtain ⟨es, hes, hentries⟩ := empty.entries_afterAll rs
  have hempty : empty.keys.Nodup := List.nodup_nil
  refine records_of_forall₂ ?_ (nodup_keys_afterAll hempty rs)
  rw [hentries]
  exact hes

/-- A call runs the handler if the number of arguments fits, and nothing else. -/
theorem call_eq (m : Method) (receiver : Value) (args : List Argument) (config : Config) :
    m.call receiver args config =
      if m.least ≤ args.length ∧ args.length ≤ m.most then m.handler receiver args config
      else .fail (.call (.arity m.name m.least m.most args.length)) := by
  simp only [Method.call, Method.takes, Bool.and_eq_true, decide_eq_true_eq]

/-- The table behind any registrations, the standard ones first or not, stands for those that were
accepted. A refused registration changes nothing, and no registration takes an entry away. A call
of a method whose number of arguments does not fit fails without a change of the session. -/
theorem registrations_law (rs : List Registration) :
    (∀ more, standard.afterAll more = empty.afterAll (standardRegistrations ++ more)) ∧
      (empty.afterAll rs).Records (empty.accepted rs) ∧
      (∀ r fault, (empty.afterAll rs).submit r = .error fault →
        empty.afterAll (rs ++ [r]) = empty.afterAll rs ∧
          empty.accepted (rs ++ [r]) = empty.accepted rs) ∧
      (∀ r t, (empty.afterAll rs).submit r = .ok t →
        empty.afterAll (rs ++ [r]) = t ∧ empty.accepted (rs ++ [r]) = empty.accepted rs ++ [r]) ∧
      (∀ more, (empty.afterAll rs).entries <+: (empty.afterAll (rs ++ more)).entries) ∧
      ∀ e ∈ (empty.afterAll rs).entries, ∀ receiver args config session,
        if e.2.least ≤ args.length ∧ args.length ≤ e.2.most then
          e.2.call receiver args config = e.2.handler receiver args config
        else ∃ fault : Fault, fault.category = .invalidInput ∧
          (e.2.call receiver args config).run session = (.error fault, session) := by
  refine ⟨fun more ↦ ?_, records_afterAll rs, fun r fault hsubmit ↦ ?_, fun r t hsubmit ↦ ?_,
    fun more ↦ ?_, fun e _ receiver args config session ↦ ?_⟩
  · rw [afterAll_append, afterAll_standardRegistrations]
  · rw [afterAll_append, accepted_append, accepted_cons_of_error hsubmit]
    exact ⟨after_of_error hsubmit, List.append_nil _⟩
  · rw [afterAll_append, accepted_append, accepted_cons_of_ok hsubmit]
    exact ⟨after_of_ok hsubmit, rfl⟩
  · obtain ⟨es, -, hentries⟩ := (empty.afterAll rs).entries_afterAll more
    rw [afterAll_append, hentries]
    exact List.prefix_append _ _
  · rw [call_eq]
    split
    · rfl
    · exact ⟨_, rfl, rfl⟩

end MethodTable

end WaveNotebook
