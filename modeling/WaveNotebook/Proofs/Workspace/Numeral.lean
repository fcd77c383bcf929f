import WaveNotebook.Proofs.Scan.Span
import WaveNotebook.Proofs.Value.Number
import WaveNotebook.Proofs.Workspace.Concat
import WaveNotebook.Proofs.Workspace.Number

/-!
# Numerals in code

Every number that an expression starts from is spelled by a piece of its text: taking a line apart,
a call into its arguments and a code into its lines only cuts pieces out. So a property of the
numbers that are spelled in a text, of finite numbers and of measured statistics is a property of
all numbers that come out of the text, and of those that the variables stand for.
-/

namespace WaveNotebook

open Scan

/-- The numbers that the pieces of a text spell have a property. -/
def Spelled (P : Float → Prop) (s : List Char) : Prop :=
  ∀ piece x, piece <:+: s → readNumber? piece = some x → P x

/-! ## Pieces of texts -/

theorem Spelled.mono {P : Float → Prop} {s t : List Char} (h : Spelled P s) (hpiece : t <:+: s) :
    Spelled P t :=
  fun piece x h' ↦ h piece x (h'.trans hpiece)

theorem Workspace.joinWith_lines (code : List Char) : joinWith '\n' (lines code) = code := by
  induction code with
  | nil => rfl
  | cons c cs ih =>
    obtain ⟨p, ps, hlines⟩ := List.exists_cons_of_ne_nil (lines_ne_nil cs)
    unfold lines
    split
    · rename_i hc
      rw [hlines, hc]
      calc joinWith '\n' ([] :: p :: ps)
        _ = '\n' :: joinWith '\n' (p :: ps) := List.intercalate_cons_cons ..
        _ = '\n' :: cs := by rw [← hlines, ih]
    · rw [joinWith_extend (lines_ne_nil cs), ih]

/-! ## Literals and expressions -/

namespace Literal

/-- No literal is an integer as such. -/
theorem Value.ne_integer {outer : Bool} {tokens : List Token} {d : Datum}
    (h : Value outer tokens d) (n : ℤ) : d ≠ .integer n := by
  cases h <;> exact Datum.noConfusion

theorem Pairs.ne_integer {tokens : List Token} {pairs : List (String × Datum)} {n : ℤ} :
    Pairs tokens pairs → ∀ pair ∈ pairs, pair.2 ≠ .integer n
  | .one _ h, pair, hpair => by
    rw [List.mem_singleton.mp hpair]
    exact h.ne_integer n
  | .more hpairs _ h, pair, hpair => by
    obtain hpair | hpair := List.mem_append.mp hpair
    · exact hpairs.ne_integer pair hpair
    · rw [List.mem_singleton.mp hpair]
      exact h.ne_integer n

theorem spelled_of_read {text : List Char} {d : Datum} (h : read text = .ok d) : d.Spelled := by
  obtain ⟨tokens, -, hd⟩ := read_eq_ok_iff_denotes.mp h
  rintro fields rfl field hfield n
  cases hd with
  | emptyRecord => cases hfield
  | record hpairs =>
    exact hpairs.ne_integer field (Record.mem_of_mem_ofPairs hfield)

end Literal

theorem Scope.resolve_holds {M : List (String × Float) → Prop} {P : Float → Prop} (scope : Scope)
    (hbound : ∀ binding ∈ scope.bindings, binding.2.Holds M P) {name : String} {v : Value}
    (hv : scope.resolve name = some v) : v.Holds M P := by
  unfold Scope.resolve at hv
  obtain hv | ⟨-, hv⟩ := Option.or_eq_some_iff.mp hv
  · exact hbound _ (Record.mem_of_lookup hv)
  · obtain ⟨b, -, rfl⟩ := Option.map_eq_some_iff.mp hv
    trivial

/-- Each analysis of a sound and short signal that a name stands for has a property. -/
def Scope.Analyses (M : List (String × Float) → Prop) (scope : Scope) : Prop :=
  ∀ name s, scope.resolve name = some (.signal s) → s.Sound → s.Short → s.Analyses M

namespace Expr

mutual

/-- The numbers that an expression starts from have a property. -/
def Holds (M : List (String × Float) → Prop) (P : Float → Prop) : Expr → Prop
  | .number x => P x
  | .data d _ => (Argument.ofDatum d).Holds M P
  | .call _ _ args | .method _ _ args => HoldAll M P args
  | .name _ | .malformed _ | .badLiteral _ _ | .tooDeep => True

def HoldAll (M : List (String × Float) → Prop) (P : Float → Prop) : List Expr → Prop
  | [] => True
  | e :: es => e.Holds M P ∧ HoldAll M P es

end

section

variable {M : List (String × Float) → Prop} {P : Float → Prop} {s text : List Char}

theorem holdAll_iff {es : List Expr} : HoldAll M P es ↔ ∀ e ∈ es, e.Holds M P := by
  induction es with
  | nil => simp [HoldAll]
  | cons e es ih => rw [HoldAll, ih, List.forall_mem_cons]

theorem ofLiteral_holds (h : Spelled P s) : (ofLiteral s).Holds M P := by
  unfold ofLiteral
  cases hread : Literal.read s with
  | error e => trivial
  | ok d =>
    change (Argument.ofDatum d).Holds M P
    unfold Argument.ofDatum
    split
    · exact h s _ List.infix_rfl (Literal.read_eq_number_iff.mp hread)
    · exact Literal.spelled_of_read hread

theorem argumentsWith_hold {read : List Char → Expr}
    (h : ∀ piece, piece <:+: text → (read piece).Holds M P) :
    HoldAll M P (argumentsWith read text) := by
  unfold argumentsWith
  rw [holdAll_iff]
  split
  · rename_i pieces hpieces
    exact List.forall_mem_map.mpr fun piece hpiece ↦
      h piece (infix_of_splitArguments hpieces piece hpiece)
  · exact List.forall_mem_singleton.mpr trivial

theorem readWithin_holds {bound : ℕ} (h : Spelled P s) : (readWithin bound s).Holds M P := by
  induction bound generalizing s with
  | zero => trivial
  | succ bound ih =>
    have htrim := h.mono (Text.infix_trim s)
    unfold readWithin
    dsimp only
    split
    · trivial
    · split
      · split
        · trivial
        · rename_i callee text hparts
          have htext :=
            htrim.mono ((infix_of_callParts hparts).trans (List.drop_suffix _ _).isInfix)
          split
          · refine argumentsWith_hold fun piece hpiece ↦ ?_
            split
            · exact ofLiteral_holds (htext.mono hpiece)
            · exact ih (htext.mono hpiece)
          · exact argumentsWith_hold fun piece hpiece ↦ ih (htext.mono hpiece)
      · split
        · rename_i x hx
          exact htrim _ x List.infix_rfl hx
        · trivial

end

/-! ## Evaluation -/

section

variable {M : List (String × Float) → Prop} {P : Float → Prop} {scope : Scope}

mutual

theorem eval_returns (hP : Admissible M P) (hanalyses : scope.Analyses M)
    (hbound : ∀ binding ∈ scope.bindings, binding.2.Holds M P) {s : Session} (hs : s.store.Sound)
    (hscope : scope.Sound s.store) (e : Expr) (he : e.Holds M P) :
    Run.Returns (Argument.Holds M P) s (e.eval scope) := by
  match e with
  | .number x => exact .pure he
  | .data d _ => exact .pure he
  | .name text =>
    unfold eval
    split
    · rename_i v hv
      exact .pure (scope.resolve_holds hbound hv)
    · exact .fail _
  | .malformed f => exact .fail _
  | .badLiteral f _ => exact .fail _
  | .tooDeep => exact .fail _
  | .call callee text args =>
    unfold eval
    split
    · rename_i b _
      split
      · refine (Run.Returns.self _ _).bind fun args s' _ _ ↦ ?_
        exact (b.apply_returns scope.config args).map fun _ h ↦ h
      · refine (Run.Returns.self _ _).bind fun d s' _ _ ↦ ?_
        exact (b.apply_returns scope.config _).map fun _ h ↦ h
    · exact .fail _
  | .method receiver member args =>
    unfold eval
    split
    · exact .fail _
    · rename_i v hv
      have hperforms := evalAll_performs hs hscope args
      refine (Run.Returns.self _ _).bind fun m s₁ hm hlookup ↦ ?_
      obtain rfl := (Prod.mk.inj hm).2
      refine (evalAll_returns hP hanalyses hbound hs hscope args he).bind
        fun args s' hargs hhold ↦ ?_
      have hsound := hperforms.sound
      rw [hargs] at hsound
      have hm := scope.methods.lookup_yields v member
      rw [show scope.methods.lookup (.value v) member = .ok m from hlookup, hscope.standard] at hm
      have hreceiver := scope.resolve_holds hbound hv
      have hv' := hscope.resolve hv
      refine (m.call_returns hP hsound hm.value.1 ?_ hreceiver hhold scope.config).map fun _ h ↦ h
      rintro s rfl
      exact hanalyses receiver s hv hv' hreceiver

theorem evalAll_returns (hP : Admissible M P) (hanalyses : scope.Analyses M)
    (hbound : ∀ binding ∈ scope.bindings, binding.2.Holds M P) {s : Session} (hs : s.store.Sound)
    (hscope : scope.Sound s.store) (es : List Expr) (hes : HoldAll M P es) :
    Run.Returns (fun args ↦ ∀ a ∈ args, a.Holds M P) s (evalAll scope es) := by
  match es with
  | [] => exact .pure fun _ ha ↦ nomatch ha
  | e :: es =>
    unfold evalAll
    have hperforms := eval_performs hs hscope e
    refine (eval_returns hP hanalyses hbound hs hscope e hes.1).bind fun a s' ha hhold ↦ ?_
    have hsize := hperforms.size_le
    have hsound := hperforms.sound
    rw [ha] at hsize hsound
    refine (evalAll_returns hP hanalyses hbound hsound (hscope.mono hsize) es hes.2).bind
      fun args _ _ hargs ↦ .pure ?_
    exact List.forall_mem_cons.mpr ⟨hhold, hargs⟩

end

theorem value_returns (hP : Admissible M P) (hanalyses : scope.Analyses M)
    (hbound : ∀ binding ∈ scope.bindings, binding.2.Holds M P) {s : Session} (hs : s.store.Sound)
    (hscope : scope.Sound s.store) {e : Expr} (he : e.Holds M P) :
    Run.Returns (Value.Holds M P) s (e.value scope) := by
  unfold value
  refine (eval_returns hP hanalyses hbound hs hscope e he).bind fun a _ _ ha ↦ ?_
  split
  · exact .pure ha
  · exact .fail _

/-- What a method call gives back if its receiver can only give back such values. -/
theorem value_returns_of_receiver {s : Session} (hs : s.store.Sound)
    (hscope : scope.Sound s.store) {receiver member : String} {args : List Expr} {v : Value}
    (hv : scope.resolve receiver = some v)
    (hcall : ∀ m, (v.kind, m) ∈ MethodTable.standard.entries → ∀ s' : Session, s'.store.Sound →
      ∀ args, Run.Returns (Value.Holds M P) s' (m.call v args scope.config)) :
    Run.Returns (Value.Holds M P) s ((Expr.method receiver member args).value scope) := by
  have hperforms := evalAll_performs hs hscope args
  have heval : Run.Returns (Argument.Holds M P) s
      ((Expr.method receiver member args).eval scope) := by
    unfold eval
    rw [hv]
    refine (Run.Returns.self _ _).bind fun m s₁ hm hlookup ↦ ?_
    obtain rfl := (Prod.mk.inj hm).2
    refine (Run.Returns.self _ _).bind fun args s' hargs _ ↦ ?_
    have hsound := hperforms.sound
    rw [hargs] at hsound
    have hm := scope.methods.lookup_yields v member
    rw [show scope.methods.lookup (.value v) member = .ok m from hlookup, hscope.standard] at hm
    exact (hcall m hm.value.1 s' hsound args).map fun _ h ↦ h
  unfold value
  refine heval.bind fun a _ _ ha ↦ ?_
  split
  · exact .pure ha
  · exact .fail _

end

end Expr

/-! ## Sessions -/

namespace Workspace

/-- The workspaces in which lines of code are run, up to the first line that fails. -/
def stages (w : Workspace) (number : ℕ) (raws : List (List Char)) (room : Option ℕ := none) :
    List Workspace :=
  match raws with
  | [] => []
  | raw :: rest =>
    w :: match w.step number raw room with
      | (.error _, _) => []
      | (.ok _, w') => w'.stages (number + 1) rest room

/-- The workspaces of a notebook session, with the codes and expressions that it has been given and
the workspaces in which their lines have been run. -/
inductive Given : List (List Char) → List Workspace → Workspace → Prop
  | new {config : Config} (h : config.Accepted) : Given [] [] (new config .standard)
  | execute {texts trail w} (hw : Given texts trail w) (code : List Char)
    (room : Option ℕ := none) :
    Given (texts ++ [code]) (trail ++ w.stages 1 (lines code) room) (w.execute code room).2
  | evaluate {texts trail w} (hw : Given texts trail w) (text : List Char)
    (room : Option ℕ := none) :
    Given (texts ++ [text]) (trail ++ [w]) (w.evaluate text room).2

section

variable {M : List (String × Float) → Prop} {P : Float → Prop} {texts : List (List Char)}
  {trail : List Workspace} {w : Workspace}

theorem Given.reachable (hw : Given texts trail w) : Reachable w := by
  induction hw with
  | new h => exact .new h
  | execute hw code room ih => exact .execute ih code room
  | evaluate hw text room ih => exact .evaluate ih text room

/-- The numbers and the metrics that the variables stand for have properties. -/
def Holds (M : List (String × Float) → Prop) (P : Float → Prop) (w : Workspace) : Prop :=
  ∀ binding ∈ w.scope.bindings, binding.2.Holds M P

theorem Holds.assign (hbound : w.Holds M P) (target : Option String) {v : Value}
    (hv : v.Holds M P) : (w.assign target v).Holds M P := by
  cases target with
  | none => exact hbound
  | some name =>
    intro binding hbinding
    obtain rfl | hbinding := Record.mem_put hbinding
    · exact hv
    · exact hbound binding hbinding

section

variable (hP : Admissible M P)

include hP

theorem Sound.evaluate_returned (hw : w.Sound) (hanalyses : w.scope.Analyses M)
    (hbound : w.Holds M P) {text : List Char} (htext : Spelled P text) :
    Returned (Value.Holds M P) (w.evaluate text).1 :=
  Expr.value_returns hP hanalyses hbound hw.store hw.scope (Expr.readWithin_holds htext)

theorem Holds.step (hbound : w.Holds M P) (hanalyses : w.scope.Analyses M) (hw : w.Sound)
    (number : ℕ) {raw : List Char} (hraw : Spelled P raw) : (w.step number raw).2.Holds M P := by
  cases w.step_cases number raw with
  | passed h hstep =>
    rw [hstep]
    exact hbound
  | malformed h hline hstep =>
    rw [hstep]
    exact hbound
  | failed h hline hvalue hstep =>
    rw [hstep, Holds, (frame_of_evaluate hvalue).1]
    exact hbound
  | done h hline hvalue hstep =>
    have hexpression := hraw.mono ((infix_of_assignment hline).trans (infix_code w raw))
    have hreturned := hw.evaluate_returned hP hanalyses hbound hexpression
    rw [hvalue] at hreturned
    have hframe := (frame_of_evaluate hvalue).1
    rw [hstep]
    refine Holds.assign ?_ _ hreturned.value
    rw [Holds, hframe]
    exact hbound

theorem Holds.run (hbound : w.Holds M P) (hw : w.Sound) (number : ℕ) {raws : List (List Char)}
    (hraws : ∀ raw ∈ raws, Spelled P raw) {room : Option ℕ}
    (hstages : ∀ w' ∈ w.stages number raws room, w'.scope.Analyses M) :
    (w.run number raws room).2.Holds M P := by
  induction raws generalizing w number with
  | nil => exact hbound
  | cons raw rest ih =>
    obtain ⟨hraw, hrest⟩ := List.forall_mem_cons.mp hraws
    obtain ⟨hfirst, hnext⟩ := List.forall_mem_cons.mp hstages
    obtain hsame | ⟨w', -, hstep, hexhausts⟩ := w.step_in_cases number raw room
    · have hholds := hbound.step hP hfirst hw number hraw
      have hsound := (hw.step number raw).2
      rw [← hsame] at hholds hsound
      cases hstep : w.step number raw room with
      | mk r w' =>
        rw [hstep] at hholds hsound hnext
        cases r with
        | error fault =>
          rw [run_cons_error hstep]
          exact hholds
        | ok out =>
          rw [run_cons_ok hstep]
          exact ih hholds hsound (number + 1) hrest hnext
    · rw [run_cons_error hstep, Holds, hexhausts.scope]
      exact hbound

theorem Given.holds (hw : Given texts trail w) (htexts : ∀ text ∈ texts, Spelled P text)
    (htrail : ∀ w' ∈ trail, w'.scope.Analyses M) : w.Holds M P := by
  induction hw with
  | new h => exact fun _ hbinding ↦ nomatch hbinding
  | execute hw code room ih =>
    obtain ⟨hbefore, hcode⟩ := List.forall_mem_append.mp htexts
    obtain ⟨hpassed, hstages⟩ := List.forall_mem_append.mp htrail
    refine (ih hbefore hpassed).run hP hw.reachable.sound 1 (fun raw hraw ↦ ?_) hstages
    refine (hcode code (List.mem_singleton_self code)).mono ?_
    rw [← joinWith_lines code]
    exact infix_joinWith hraw
  | evaluate hw text room ih =>
    exact ih (List.forall_mem_append.mp htexts).1 (List.forall_mem_append.mp htrail).1

end

end

end Workspace

end WaveNotebook
