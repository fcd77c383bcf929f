import Mathlib.Data.List.Forall2
import WaveNotebook.Proofs.Text.Name
import WaveNotebook.Proofs.Workspace.Expression
import WaveNotebook.Proofs.Workspace.Run

/-!
# Calls

A call does what its text says: its arguments are evaluated one by one from left to right, each on
the workspace that the one before has left, up to the first that fails; and if none fails, the
callee is applied to them. Blanks make no difference, and neither does what stands in the
arguments.
-/

namespace WaveNotebook

open Text Scan

namespace Workspace

variable {α β : Type} {w w' : Workspace}

/-! ## Computations on a workspace -/

/-- The result of a computation, and the workspace that it leaves. -/
def perform (w : Workspace) (x : Run α) : Except Fault α × Workspace :=
  ((x.run w.session).1, { w with session := (x.run w.session).2 })

theorem scope_of_perform {x : Run α} {r : Except Fault α} (h : w.perform x = (r, w')) :
    w'.scope = w.scope := by
  obtain ⟨-, rfl⟩ := Prod.mk.inj h
  rfl

theorem perform_bind_ok {x : Run α} {a : α} (h : w.perform x = (.ok a, w')) (f : α → Run β) :
    w.perform (x >>= f) = w'.perform (f a) := by
  obtain ⟨hresult, rfl⟩ := Prod.mk.inj h
  have hx : x.run w.session = (.ok a, (x.run w.session).2) := Prod.ext hresult rfl
  unfold perform
  rw [Run.run_bind_ok hx]

theorem perform_bind_error {x : Run α} {fault : Fault} (h : w.perform x = (.error fault, w'))
    (f : α → Run β) : w.perform (x >>= f) = (.error fault, w') := by
  obtain ⟨hresult, rfl⟩ := Prod.mk.inj h
  have hx : x.run w.session = (.error fault, (x.run w.session).2) := Prod.ext hresult rfl
  unfold perform
  rw [Run.run_bind_error hx]

/-! ## Arguments -/

/-- The value of an argument: a number, or a data literal if the callee takes these, or else the
value of an expression. -/
def argument (literals : Bool) (w : Workspace) (text : List Char) :
    Except Fault Argument × Workspace :=
  match readNumber? text with
  | some x => (.ok (.value (.number x)), w)
  | none =>
    if literals && Expr.isLiteral (trim text) then
      match Literal.read (trim text) with
      | .ok d => (.ok (.ofDatum d), w)
      | .error e => (.error (.literal e), w)
    else ((w.evaluate text).1.map .value, (w.evaluate text).2)

/-- The values of arguments, each evaluated behind the one before, if none of them fails. -/
def arguments (literals : Bool) (w : Workspace) :
    List (List Char) → Except Fault (List Argument) × Workspace
  | [] => (.ok [], w)
  | a :: as =>
    match w.argument literals a with
    | (.error fault, w) => (.error fault, w)
    | (.ok v, w) =>
      match arguments literals w as with
      | (.error fault, w) => (.error fault, w)
      | (.ok vs, w) => (.ok (v :: vs), w)

/-- A callee with the texts of its arguments. -/
def call (literals : Bool) (apply : List Argument → Run Value) (w : Workspace)
    (as : List (List Char)) : Except Fault Value × Workspace :=
  match w.arguments literals as with
  | (.error fault, w) => (.error fault, w)
  | (.ok args, w) => w.perform (apply args)

/-- The texts of callees: a name that stands for a builtin with arguments between commas, or a
receiver that stands for something and the name of a method of its kind behind a dot. A callee
takes data literals or not, and it is applied to the values of its arguments. -/
inductive Callee (w : Workspace) : List Char → Bool → (List Argument → Run Value) → Prop
  | builtin {name b front behind} (hname : w.scope.resolve name = some (.function b))
    (hstyle : b.style = .positional) (hfront : Blanks front) (hbehind : Blanks behind) :
    Callee w (front ++ name.toList ++ behind) false fun args ↦ b.apply w.scope.config args
  | method {receiver member v m front middle middle' behind}
    (hreceiver : w.scope.resolve receiver = some v)
    (hmember : w.scope.methods.lookup (.value v) member = .ok m) (hfront : Blanks front)
    (hmiddle : Blanks middle) (hmiddle' : Blanks middle') (hbehind : Blanks behind) :
    Callee w (front ++ receiver.toList ++ middle ++ '.' ::
      (middle' ++ member.toList ++ behind)) true fun args ↦ m.call v args w.scope.config

/-- A text with blanks around it. -/
def Padded (a t : List Char) : Prop :=
  ∃ front behind, Blanks front ∧ Blanks behind ∧ t = front ++ a ++ behind

end Workspace

/-! ## Results are values -/

namespace Expr

variable {scope : Scope}

theorem value_of_eval {e : Expr} {x : Run Value} (h : e.eval scope = .value <$> x) :
    e.value scope = x := by
  unfold value
  rw [h, bind_map_left]
  exact bind_pure x

/-- An expression that is not a data literal has a value for its result. -/
theorem exists_eval_eq_map {e : Expr} (he : ∀ d frames, e ≠ .data d frames) :
    ∃ x : Run Value, e.eval scope = .value <$> x := by
  have hfail : ∀ fault, (Run.fail fault : Run Argument) = .value <$> Run.fail fault := fun _ ↦ rfl
  cases e with
  | number x => exact ⟨pure (.number x), by rw [map_pure]; unfold eval; rfl⟩
  | data d frames => exact absurd rfl (he d frames)
  | malformed fault => exact ⟨_, by unfold eval; exact hfail _⟩
  | badLiteral error frames => exact ⟨_, by unfold eval; exact hfail _⟩
  | tooDeep => exact ⟨_, by unfold eval; exact hfail _⟩
  | name text =>
    unfold eval
    split
    · rename_i v _
      exact ⟨pure v, by rw [map_pure]⟩
    · exact ⟨_, hfail _⟩
  | call callee text args =>
    unfold eval
    split
    · split
      · exact ⟨_, (map_bind ..).symm⟩
      · exact ⟨_, (map_bind ..).symm⟩
    · exact ⟨_, hfail _⟩
  | method receiver member args =>
    unfold eval
    split
    · exact ⟨_, hfail _⟩
    · rename_i v _
      refine ⟨Run.lift (scope.methods.lookup (.value v) member) >>= fun m ↦
        evalAll scope args >>= fun args ↦ m.call v args scope.config, ?_⟩
      simp only [map_bind]

theorem eval_eq_map_value {e : Expr} (he : ∀ d frames, e ≠ .data d frames) :
    e.eval scope = .value <$> e.value scope := by
  obtain ⟨x, hx⟩ := exists_eval_eq_map he
  rw [value_of_eval hx, hx]

/-- A builtin is applied to the values of its arguments. -/
theorem value_builtin {callee : String} {b : Builtin}
    (hcallee : scope.resolve callee = some (.function b)) (hstyle : b.style = .positional)
    (text : List Char) (args : List Expr) :
    (Expr.call callee text args).value scope =
      evalAll scope args >>= fun args ↦ b.apply scope.config args := by
  apply value_of_eval
  unfold eval
  rw [hcallee]
  dsimp only
  rw [hstyle]
  exact (map_bind ..).symm

/-- A method is applied to its receiver and the values of its arguments. -/
theorem value_method {receiver member : String} {v : Value} {m : Method}
    (hreceiver : scope.resolve receiver = some v)
    (hmember : scope.methods.lookup (.value v) member = .ok m) (args : List Expr) :
    (Expr.method receiver member args).value scope =
      evalAll scope args >>= fun args ↦ m.call v args scope.config := by
  apply value_of_eval
  unfold eval
  rw [hreceiver]
  dsimp only
  rw [hmember, map_bind]
  rfl

theorem readWithin_ne_data (bound : Nat) (s : List Char) (d : Datum) (frames : Nat) :
    readWithin bound s ≠ .data d frames := by
  intro h
  cases bound with
  | zero => cases h
  | succ bound =>
    unfold readWithin at h
    dsimp only at h
    split at h
    · cases h
    · split at h
      · split at h
        · cases h
        · split at h <;> cases h
      · split at h <;> cases h

/-- The expression of an argument of a callee that takes data literals or not. -/
def readArgument (literals : Bool) (s : List Char) : Expr :=
  if literals then readMethodArgument s else read s

theorem not_isLiteral_of_readNumber? {s : List Char} {x : Float} (h : readNumber? s = some x) :
    isLiteral (trim s) = false := by
  obtain ⟨n, hn, -⟩ := exists_of_readNumber? h
  have hkind := hn.isDigit_or_mem
  cases htrim : trim s with
  | nil => rfl
  | cons c cs =>
    rw [htrim] at hkind
    have hc := hkind c List.mem_cons_self
    rw [Bool.eq_false_iff]
    intro hliteral
    simp only [isLiteral, isQuote, Bool.or_eq_true, beq_iff_eq] at hliteral
    obtain (rfl | rfl) | rfl | rfl := hliteral <;> revert hc <;> decide

end Expr

/-! ## Arguments are evaluated by their rule -/

namespace Workspace

variable {w : Workspace}

theorem perform_map {α β : Type} (f : α → β) (x : Run α) :
    w.perform (f <$> x) = ((w.perform x).1.map f, (w.perform x).2) := by
  rw [← bind_pure_comp]
  cases hx : w.perform x with
  | mk r w' =>
    cases r with
    | error fault => exact perform_bind_error hx _
    | ok a =>
      rw [perform_bind_ok hx]
      rfl

theorem perform_read (w : Workspace) (s : List Char) :
    w.perform ((Expr.read s).eval w.scope) = ((w.evaluate s).1.map .value, (w.evaluate s).2) := by
  have hread : ∀ d frames, Expr.read s ≠ .data d frames := Expr.readWithin_ne_data _ s
  rw [Expr.eval_eq_map_value hread, perform_map]
  rfl

theorem argument_eq_perform (literals : Bool) (w : Workspace) (s : List Char) :
    w.argument literals s = w.perform ((Expr.readArgument literals (trim s)).eval w.scope) := by
  unfold argument Expr.readArgument Expr.readMethodArgument
  rw [Expr.read_trim]
  cases hnumber : readNumber? s with
  | some x =>
    have hread := Expr.read_of_readNumber? hnumber
    rw [Expr.not_isLiteral_of_readNumber? hnumber, if_neg Bool.false_ne_true, ite_self, hread]
    rfl
  | none =>
    cases literals with
    | false => exact (perform_read w s).symm
    | true =>
      rw [Bool.true_and, if_pos rfl]
      dsimp only
      split
      · unfold Expr.ofLiteral
        cases Literal.read (trim s) <;> rfl
      · exact (perform_read w s).symm

theorem arguments_eq_perform (literals : Bool) (w : Workspace) (as : List (List Char)) :
    w.arguments literals as =
      w.perform (Expr.evalAll w.scope (as.map fun a ↦ Expr.readArgument literals (trim a))) := by
  induction as generalizing w with
  | nil => rfl
  | cons a as ih =>
    rw [List.map_cons, arguments, argument_eq_perform, Expr.evalAll]
    cases ha : w.perform ((Expr.readArgument literals (trim a)).eval w.scope) with
    | mk r w' =>
      cases r with
      | error fault => exact (perform_bind_error ha _).symm
      | ok v =>
        dsimp only
        rw [perform_bind_ok ha, ih, scope_of_perform ha]
        cases has : w'.perform (Expr.evalAll w.scope
          (as.map fun a ↦ Expr.readArgument literals (trim a))) with
        | mk r w'' =>
          cases r with
          | error fault => exact (perform_bind_error has _).symm
          | ok vs =>
            rw [perform_bind_ok has]
            rfl

theorem call_eq_perform (literals : Bool) (apply : List Argument → Run Value) (w : Workspace)
    (as : List (List Char)) :
    w.call literals apply as = w.perform
      (Expr.evalAll w.scope (as.map fun a ↦ Expr.readArgument literals (trim a)) >>= apply) := by
  rw [call, arguments_eq_perform]
  cases has : w.perform (Expr.evalAll w.scope
    (as.map fun a ↦ Expr.readArgument literals (trim a))) with
  | mk r w' =>
    cases r with
    | error fault => exact (perform_bind_error has _).symm
    | ok args => exact (perform_bind_ok has _).symm

/-! ## Callees -/

theorem Sound.plain_of_resolve (hw : w.Sound) {name : String} {v : Value}
    (h : w.scope.resolve name = some v) : isPlainName name.toList = true := by
  have hstandard : ∀ b ∈ Builtin.standard, isPlainName b.name.toList = true := by decide
  unfold Scope.resolve at h
  obtain hbound | ⟨-, hbuiltin⟩ := Option.or_eq_some_iff.mp h
  · exact hw.plain name (List.mem_map_of_mem (Record.mem_of_lookup hbound))
  · obtain ⟨b, hb, -⟩ := Option.map_eq_some_iff.mp hbuiltin
    unfold Scope.builtin? at hb
    have hb' := List.find?_some hb
    rw [← beq_iff_eq.mp hb']
    exact hstandard b (List.mem_of_find?_eq_some hb)

theorem Sound.plain_of_lookup (hw : w.Sound) {v : Value} {member : String} {m : Method}
    (h : w.scope.methods.lookup (.value v) member = .ok m) :
    isPlainName member.toList = true := by
  have hstandard : ∀ entry ∈ MethodTable.standard.entries,
      isPlainName entry.2.name.toList = true := by decide
  have hlookup := w.scope.methods.lookup_yields v member
  rw [h, hw.scope.standard] at hlookup
  obtain ⟨hmem, rfl⟩ := hlookup.value
  exact hstandard _ hmem

/-- A character that stands neither in plain names nor in blanks. -/
theorem not_mem_of_pad {front name behind : List Char} (hfront : Blanks front)
    (hname : isPlainName name = true) (hbehind : Blanks behind) {c : Char}
    (hblank : isBlank c = false) (hpart : isPlainPart c = false) :
    c ∉ front ++ name ++ behind := by
  have hnot : ∀ s, Blanks s → c ∉ s := by
    intro s hs hc
    rw [hs c hc] at hblank
    cases hblank
  simp only [List.mem_append, not_or]
  exact ⟨⟨hnot _ hfront, not_mem_of_isPlainName hname hpart⟩, hnot _ hbehind⟩

theorem not_blanks_of_pad {front name behind : List Char} (hname : isPlainName name = true) :
    ¬Blanks (front ++ name ++ behind) := fun hblanks ↦
  not_blanks_of_isPlainName hname (blanks_append_iff.mp (blanks_append_iff.mp hblanks).1).2

theorem trim_pad_name {front name behind : List Char} (hfront : Blanks front)
    (hname : isPlainName name = true) (hbehind : Blanks behind) :
    trim (front ++ name ++ behind) = name := by
  rw [trim_pad hfront hbehind, trim_of_isPlainName hname]

/-- What stands on both sides of a dot loses only the blanks at its ends. -/
theorem trim_dot {a b : List Char} (ha : ¬Blanks a) (hb : ¬Blanks b) :
    trim (a ++ '.' :: b) = trimLeft a ++ '.' :: trimRight b := by
  rw [trim, trimLeft_append_of_not_blanks ha, ← List.singleton_append, ← List.append_assoc,
    trimRight_append_of_not_blanks hb, List.append_assoc, List.singleton_append]

/-- Whatever stands between the parentheses, the text of a callee is read as that callee. -/
theorem Sound.value_read (hw : w.Sound) {callee : List Char} {literals : Bool}
    {apply : List Argument → Run Value} (hcallee : Callee w callee literals apply)
    {ts : List (List Char)} (hts : ∀ t ∈ ts, Expr.IsArgument t) {blanks behind : List Char}
    (hblanks : Blanks blanks) (hbehind : Blanks behind) :
    (Expr.read (callee ++ '(' :: (blanks ++ joinWith ',' ts ++ ')' :: behind))).value w.scope =
      Expr.evalAll w.scope (ts.map fun t ↦ Expr.readArgument literals (trim t)) >>= apply := by
  cases hcallee with
  | @builtin name b front behind' hname hstyle hfront hbehind' =>
    have hplain := hw.plain_of_resolve hname
    have hdot : '.' ∉ name.toList := not_mem_of_isPlainName hplain (by decide)
    rw [Expr.read_call (not_mem_of_pad hfront hplain hbehind' (by decide) (by decide))
      (not_blanks_of_pad hplain) hblanks hts hbehind, trim_pad_name hfront hplain hbehind',
      Expr.splitLastDot_of_not_mem hdot]
    dsimp only
    rw [String.ofList_toList, Expr.value_builtin hname hstyle]
    rfl
  | @method receiver member v m front middle middle' behind' hreceiver hmember hfront hmiddle
      hmiddle' hbehind' =>
    have hplain := hw.plain_of_resolve hreceiver
    have hplain' := hw.plain_of_lookup hmember
    have hreceiver' : ¬Blanks (front ++ receiver.toList ++ middle) := not_blanks_of_pad hplain
    have hmember' : ¬Blanks (middle' ++ member.toList ++ behind') := not_blanks_of_pad hplain'
    have hparen : '(' ∉ front ++ receiver.toList ++ middle ++ '.' ::
        (middle' ++ member.toList ++ behind') := by
      rw [List.mem_append, List.mem_cons, not_or, not_or]
      exact ⟨not_mem_of_pad hfront hplain hmiddle (by decide) (by decide), by decide,
        not_mem_of_pad hmiddle' hplain' hbehind' (by decide) (by decide)⟩
    have hvisible : ¬Blanks (front ++ receiver.toList ++ middle ++ '.' ::
        (middle' ++ member.toList ++ behind')) :=
      fun hall ↦ hreceiver' (blanks_append_iff.mp hall).1
    -- the last dot is the one between the names, since there is none in the second name
    have hdot : '.' ∉ trimRight (middle' ++ member.toList ++ behind') := fun hmem ↦
      not_mem_of_pad hmiddle' hplain' hbehind' (by decide) (by decide)
        ((trimRight_prefix_self _).subset hmem)
    rw [Expr.read_call hparen hvisible hblanks hts hbehind, trim_dot hreceiver' hmember',
      Expr.splitLastDot_append _ hdot]
    dsimp only
    rw [trim_trimLeft, trim_trimRight, trim_pad_name hfront hplain hmiddle,
      trim_pad_name hmiddle' hplain' hbehind', String.ofList_toList, String.ofList_toList,
      Expr.value_method hreceiver hmember]
    rfl

/-! ## Calls -/

theorem Padded.trim_eq {a t : List Char} (h : Padded a t) : trim t = trim a := by
  obtain ⟨front, behind, hfront, hbehind, rfl⟩ := h
  exact trim_pad hfront hbehind a

theorem Padded.isArgument {a t : List Char} (h : Padded a t) (ha : Expr.IsArgument a) :
    Expr.IsArgument t := by
  obtain ⟨front, behind, hfront, hbehind, rfl⟩ := h
  refine ⟨fun hblanks ↦ ha.visible ?_, (isPiece_pad (by decide) hfront hbehind).mpr ha.piece⟩
  exact (blanks_append_iff.mp (blanks_append_iff.mp hblanks).1).2

/-- A call with any texts of one piece for its arguments evaluates these once each, from left to
right up to the first that fails, and then applies its callee. Blanks around the names, the dot,
the parentheses and the arguments make no difference. -/
theorem Reachable.evaluate_call (hw : Reachable w) {callee : List Char} {literals : Bool}
    {apply : List Argument → Run Value} (hcallee : Callee w callee literals apply)
    {as ts : List (List Char)} (has : ∀ a ∈ as, Expr.IsArgument a) (hts : List.Forall₂ Padded as ts)
    {blanks behind : List Char} (hblanks : Blanks blanks) (hbehind : Blanks behind) :
    w.evaluate (callee ++ '(' :: (blanks ++ joinWith ',' ts ++ ')' :: behind)) =
      w.call literals apply as := by
  have hts' : ∀ t ∈ ts, Expr.IsArgument t := by
    induction hts with
    | nil => exact fun _ ht ↦ nomatch ht
    | cons hpad _ ih =>
      intro t ht
      obtain rfl | ht := List.mem_cons.mp ht
      · exact hpad.isArgument (has _ List.mem_cons_self)
      · exact ih (fun a ha ↦ has a (List.mem_cons_of_mem _ ha)) t ht
  have hread : (ts.map fun t ↦ Expr.readArgument literals (trim t)) =
      as.map fun a ↦ Expr.readArgument literals (trim a) := by
    clear has hts'
    induction hts with
    | nil => rfl
    | cons hpad _ ih => rw [List.map_cons, List.map_cons, hpad.trim_eq, ih]
  calc
    _ = w.perform ((Expr.read (callee ++ '(' :: (blanks ++ joinWith ',' ts ++ ')' :: behind))).value
        w.scope) := rfl
    _ = w.perform (Expr.evalAll w.scope
        (ts.map fun t ↦ Expr.readArgument literals (trim t)) >>= apply) := by
      rw [hw.sound.value_read hcallee hts' hblanks hbehind]
    _ = w.perform (Expr.evalAll w.scope
        (as.map fun a ↦ Expr.readArgument literals (trim a)) >>= apply) := by
      rw [hread]
    _ = _ := (call_eq_perform literals apply w as).symm

/-- A call with blanks in it, whose arguments hold calls, commas and a quoted parenthesis. -/
theorem evaluate_call_new :
    (new .default .standard).evaluate " sine ( square( 1,2 ) ,m.get(\")\", [1]))".toList =
      (new .default .standard).call false
        (fun args ↦ Builtin.apply ⟨"sine", .tone .sine, .positional⟩ .default args)
        ["square( 1,2 )".toList, "m.get(\")\", [1])".toList] := by
  have hcallee : Callee (new .default .standard) ([' '] ++ "sine".toList ++ [' ']) false
      fun args ↦ Builtin.apply ⟨"sine", .tone .sine, .positional⟩ .default args :=
    .builtin rfl rfl (by decide) (by decide)
  have hargs : ∀ a ∈ ["square( 1,2 )".toList, "m.get(\")\", [1])".toList], Expr.IsArgument a :=
    List.forall_mem_cons.mpr ⟨⟨by decide, rfl⟩, List.forall_mem_singleton.mpr ⟨by decide, rfl⟩⟩
  have hpads : List.Forall₂ Padded ["square( 1,2 )".toList, "m.get(\")\", [1])".toList]
      [" square( 1,2 ) ".toList, "m.get(\")\", [1])".toList] :=
    .cons ⟨[' '], [' '], by decide, by decide, by decide⟩
      (.cons ⟨[], [], blanks_nil, blanks_nil, (List.append_nil _).symm⟩ .nil)
  have htext : " sine ( square( 1,2 ) ,m.get(\")\", [1]))".toList =
      [' '] ++ "sine".toList ++ [' '] ++ '(' :: ([] ++
        joinWith ',' [" square( 1,2 ) ".toList, "m.get(\")\", [1])".toList] ++ [')']) := by
    decide
  rw [htext]
  exact Reachable.evaluate_call (.new Config.accepted_default) hcallee hargs hpads blanks_nil
    blanks_nil

end Workspace

end WaveNotebook
