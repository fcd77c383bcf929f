import WaveNotebook.Proofs.Literal.Scan
import WaveNotebook.Proofs.Workspace.Expression

/-!
# Literals as arguments

A statement that calls a method on literals comes through all scanners in one piece: they look for
a comment, for the equals sign of an assignment, for the parenthesis that closes the call, and for
the commas between its arguments. None of them stops inside a literal, so each one is read as the
datum that it denotes.
-/

namespace WaveNotebook.Workspace

open Text Scan Literal

/-! ## Arguments between commas -/

theorem balanced_arguments {args : List (List Char)} (hargs : ∀ a ∈ args, Expr.IsArgument a) :
    Balanced (joinWith ',' args) := by
  have hsplit := Expr.exists_splitTopLevel blanks_nil hargs
  exact (exists_splitTopLevel_iff ',' _).mp hsplit

section

variable {texts : List (List Char)} (htexts : ∀ t ∈ texts, ∃ d, Denotes t d)

include htexts

theorem isArgument_of_literals : ∀ t ∈ texts, Expr.IsArgument t := by
  intro t ht
  obtain ⟨d, hd⟩ := htexts t ht
  exact ⟨hd.not_blanks, hd.isPiece⟩

theorem hides_literals {d : Char} (hd : Foreign d) : Hides d (joinWith ',' texts) := by
  obtain ⟨tokens, htokens⟩ := exists_spells_joinWith htexts
  exact htokens.hides hd

end

/-! ## Assignments -/

section

variable {expression : List Char} (h : IsPiece '=' expression)

include h

theorem assignment_of_isPiece : assignment expression = .ok (none, expression) := by
  unfold assignment
  rw [show splitTopLevel '=' expression = .ok [expression] from h]
  rfl

theorem assignment_name {name : List Char} (hname : isPlainName name = true)
    (hne : expression ≠ []) (htrim : trim expression = expression) :
    assignment (name ++ '=' :: expression) = .ok (some (String.ofList name), expression) := by
  have hpieces : ∀ p ∈ [name, expression], IsPiece '=' p := by
    intro p hp
    obtain rfl | hp := List.mem_cons.mp hp
    · exact isPiece_of_inert (inert_of_isPlainName hname) (by decide)
    · rw [List.mem_singleton.mp hp]
      exact h
  have hsplit : splitTopLevel '=' (name ++ '=' :: expression) = .ok [name, expression] := by
    have hjoin := splitTopLevel_joinWith ⟨rfl, rfl, rfl⟩ (List.cons_ne_nil _ _) hpieces
    rw [joinWith_cons_cons, joinWith, List.intercalate_singleton] at hjoin
    exact hjoin
  have hexpression : trim (joinWith '=' [expression]) = expression := by
    rw [joinWith, List.intercalate_singleton, htrim]
  have hname' : name.isEmpty = false := by
    rw [List.isEmpty_eq_false_iff]
    rintro rfl
    cases hname
  unfold assignment
  rw [hsplit]
  dsimp only [Except.mapError]
  rw [trim_of_isPlainName hname, hexpression, hname', List.isEmpty_eq_false_iff.mpr hne, hname]
  rfl

end

/-! ## Statements that call a method -/

/-- The call of a method with commas between its arguments. -/
def methodCall (receiver member : List Char) (args : List (List Char)) : List Char :=
  receiver ++ '.' :: member ++ '(' :: (joinWith ',' args ++ [')'])

/-- A statement that is an expression or assigns it to a name. -/
def assigning (target : Option (List Char)) (expression : List Char) : List Char :=
  match target with
  | none => expression
  | some name => name ++ '=' :: expression

section

variable {receiver member : List Char} (hreceiver : isPlainName receiver = true)
  (hmember : isPlainName member = true)

include hreceiver hmember

theorem inert_callee : ∀ c ∈ receiver ++ '.' :: member, Inert c := by
  intro c hc
  obtain hc | hc := List.mem_append.mp hc
  · exact inert_of_isPlainName hreceiver c hc
  · obtain rfl | hc := List.mem_cons.mp hc
    · exact ⟨by decide, by decide⟩
    · exact inert_of_isPlainName hmember c hc

section

variable {args : List (List Char)} (hargs : ∀ a ∈ args, Expr.IsArgument a)

include hargs

theorem isPiece_methodCall : IsPiece '=' (methodCall receiver member args) :=
  (isPiece_of_inert (inert_callee hreceiver hmember) (by decide)).append
    (.pair rfl (balanced_arguments hargs))

theorem read_methodCall :
    Expr.read (methodCall receiver member args) =
      .method (String.ofList receiver) (String.ofList member)
        (args.map fun a ↦ Expr.readMethodArgument (trim a)) := by
  have hinert := inert_callee hreceiver hmember
  have hvisible : ¬Blanks (receiver ++ '.' :: member) := fun hblanks ↦
    not_blanks_of_isPlainName hreceiver (blanks_append_iff.mp hblanks).1
  have hdot : '.' ∉ member := not_mem_of_isPlainName hmember (by decide)
  have hread := Expr.read_call (not_mem_of_inert hinert (by decide)) hvisible blanks_nil hargs
    blanks_nil
  rw [trim_of_forall fun c hc ↦ (hinert c hc).visible, Expr.splitLastDot_append receiver hdot]
    at hread
  dsimp only at hread
  rw [trim_of_isPlainName hreceiver, trim_of_isPlainName hmember] at hread
  exact hread

end

theorem hides_methodCall {texts : List (List Char)} (htexts : ∀ t ∈ texts, ∃ d, Denotes t d) :
    Hides '/' (methodCall receiver member texts) := by
  have hcallee : Hides '/' (receiver ++ '.' :: member) :=
    hides_of_inert (inert_callee hreceiver hmember) (by decide)
  have hopener : Hides '/' ['('] := .single (by decide) (by decide)
  have hcloser : Hides '/' [')'] := .single (by decide) (by decide)
  exact hcallee.append (hopener.append ((hides_literals htexts foreign_slash).append hcloser))

end

/-- A text between a plain name and a visible end. -/
theorem trim_name_append {name s : List Char} (hname : isPlainName name = true)
    (hs : EndsVisible s) : trim (name ++ s) = name ++ s := by
  rw [trim, trimLeft_append_of_not_blanks (not_blanks_of_isPlainName hname),
    trimLeft_of_isPlainName hname, (hs.append_left name).trimRight_eq]

section

variable {receiver : List Char} (hreceiver : isPlainName receiver = true) (member : List Char)
  (args : List (List Char))

include hreceiver

theorem trim_methodCall :
    trim (methodCall receiver member args) = methodCall receiver member args := by
  have hend : EndsVisible ('.' :: member ++ '(' :: (joinWith ',' args ++ [')'])) :=
    ⟨'.' :: member ++ '(' :: joinWith ',' args, ')', by simp, by decide⟩
  unfold methodCall
  rw [List.append_assoc]
  exact trim_name_append hreceiver hend

theorem trim_assigning {target : Option (List Char)}
    (htarget : ∀ name ∈ target, isPlainName name = true) :
    trim (assigning target (methodCall receiver member args)) =
      assigning target (methodCall receiver member args) := by
  cases target with
  | none => exact trim_methodCall hreceiver member args
  | some name =>
    have hend : EndsVisible ('=' :: methodCall receiver member args) :=
      ⟨'=' :: (receiver ++ '.' :: member ++ '(' :: joinWith ',' args), ')', by simp [methodCall],
        by decide⟩
    exact trim_name_append (htarget name rfl) hend

end

section

variable {target : Option (List Char)} (htarget : ∀ name ∈ target, isPlainName name = true)
  {receiver member : List Char} (hreceiver : isPlainName receiver = true)
  (hmember : isPlainName member = true)

include htarget hreceiver hmember

/-- No comment is found in a call of a method on literals. -/
theorem stripComment_assigning {texts : List (List Char)}
    (htexts : ∀ t ∈ texts, ∃ d, Denotes t d) :
    stripComment Config.default.marker.toList
      (assigning target (methodCall receiver member texts)) =
        assigning target (methodCall receiver member texts) := by
  have hcall : Hides '/' (methodCall receiver member texts) :=
    hides_methodCall hreceiver hmember htexts
  have hline : Hides '/' (assigning target (methodCall receiver member texts)) := by
    cases target with
    | none => exact hcall
    | some name =>
      have hname : Hides '/' name := hides_of_inert (inert_of_isPlainName (htarget name rfl))
        (by decide)
      have hequals : Hides '/' ['='] := .single (by decide) (by decide)
      exact hname.append (hequals.append hcall)
  exact (hline.stripComment_eq ['/']).trans (trim_assigning hreceiver member texts htarget)

theorem assignment_assigning {args : List (List Char)} (hargs : ∀ a ∈ args, Expr.IsArgument a) :
    assignment (assigning target (methodCall receiver member args)) =
      .ok (target.map String.ofList, methodCall receiver member args) := by
  have hcall : IsPiece '=' (methodCall receiver member args) :=
    isPiece_methodCall hreceiver hmember hargs
  cases target with
  | none => exact assignment_of_isPiece hcall
  | some name =>
    exact assignment_name hcall (htarget name rfl) (by simp [methodCall])
      (trim_methodCall hreceiver member args)

end

/-! ## Literals reach the reader -/

theorem readMethodArgument_of_denotes {t : List Char} {d : Datum} (h : Denotes t d)
    (hliteral : Expr.isLiteral (trim t) = true) :
    Expr.readMethodArgument (trim t) = .data d (Literal.frames (trim t)) := by
  have hread : Literal.read (trim t) = .ok d := read_eq_ok_iff_denotes.mpr h.trim
  rw [Expr.readMethodArgument, if_pos hliteral, Expr.ofLiteral, hread]

/-- Literals with commas between them are split at these commas alone, they close the parenthesis
in front of them at their end, and neither equals signs nor comments are found in them. So they
reach the reader from any statement that calls a method on them, and among any other arguments,
with nothing changed but for the blanks around them. -/
theorem literals_intact {texts : List (List Char)} (hne : texts ≠ [])
    (htexts : ∀ t ∈ texts, ∃ d, Literal.read t = .ok d) :
    splitTopLevel ',' (joinWith ',' texts) = .ok texts ∧
      matchingParen ('(' :: (joinWith ',' texts ++ [')'])) 0 =
        .ok (('(' :: (joinWith ',' texts ++ [')'])).length - 1) ∧
      splitTopLevel '=' (joinWith ',' texts) = .ok [joinWith ',' texts] ∧
      (∀ t ∈ texts, trim t = t → stripComment Config.default.marker.toList t = t) ∧
      (∀ t ∈ texts, Expr.isLiteral (trim t) = true → ∀ d, Literal.read t = .ok d →
        Literal.read (trim t) = .ok d ∧
          Expr.readMethodArgument (trim t) = .data d (Literal.frames (trim t))) ∧
      ∀ target receiver member, (∀ name ∈ target, isPlainName name = true) →
        isPlainName receiver = true → isPlainName member = true →
          stripComment Config.default.marker.toList
              (assigning target (methodCall receiver member texts)) =
            assigning target (methodCall receiver member texts) ∧
          ∀ args, (∀ a ∈ args, a ∈ texts ∨ Expr.IsArgument a) →
            assignment (assigning target (methodCall receiver member args)) =
              .ok (target.map String.ofList, methodCall receiver member args) ∧
            Expr.read (methodCall receiver member args) =
              .method (String.ofList receiver) (String.ofList member)
                (args.map fun a ↦ Expr.readMethodArgument (trim a)) := by
  have hdenotes : ∀ t ∈ texts, ∃ d, Denotes t d := fun t ht ↦
    (htexts t ht).imp fun _ ↦ read_eq_ok_iff_denotes.mp
  have harguments : ∀ t ∈ texts, Expr.IsArgument t := isArgument_of_literals hdenotes
  have hsplit : splitTopLevel ',' (joinWith ',' texts) = .ok texts :=
    splitTopLevel_joinWith ⟨rfl, rfl, rfl⟩ hne fun t ht ↦ (harguments t ht).piece
  refine ⟨hsplit, ?_, ?_, fun t ht htrim ↦ ?_, fun t _ hliteral d hd ↦ ?_,
    fun target receiver member htarget hreceiver hmember ↦ ⟨?_, fun args hargs ↦ ?_⟩⟩
  · have hmatch := matchingParen_append hsplit [] []
    have hlast : ('(' :: (joinWith ',' texts ++ [')'])).length - 1 =
        ([] : List Char).length + 1 + (joinWith ',' texts).length := by
      simp
      omega
    rw [hlast]
    exact hmatch
  · exact IsPiece.of_unmarked (balanced_arguments harguments)
      ((hides_literals hdenotes foreign_equals).unmarked [])
  · obtain ⟨d, tokens, hspells, -⟩ := hdenotes t ht
    exact ((hspells.hides foreign_slash).stripComment_eq ['/']).trans htrim
  · have ht : Denotes t d := read_eq_ok_iff_denotes.mp hd
    exact ⟨read_eq_ok_iff_denotes.mpr ht.trim, readMethodArgument_of_denotes ht hliteral⟩
  · exact stripComment_assigning htarget hreceiver hmember hdenotes
  · have hargs' : ∀ a ∈ args, Expr.IsArgument a := fun a ha ↦
      (hargs a ha).elim (harguments a) id
    exact ⟨assignment_assigning htarget hreceiver hmember hargs',
      read_methodCall hreceiver hmember hargs'⟩

/-- A list of texts that hold what the scanners look for, and a quote in quotes behind a blank. -/
theorem literals_intact_quoted :
    splitTopLevel ',' "[\"a,(=//\", ')'], '\"'".toList =
        .ok ["[\"a,(=//\", ')']".toList, " '\"'".toList] ∧
      stripComment Config.default.marker.toList "y=s.f([\"a,(=//\", ')'], '\"')".toList =
        "y=s.f([\"a,(=//\", ')'], '\"')".toList := by
  have hok : ∀ t ∈ ["[\"a,(=//\", ')']".toList, " '\"'".toList],
      (Literal.read t).isOk = true := by decide +kernel
  obtain ⟨hsplit, -, -, -, -, hstatement⟩ := literals_intact (List.cons_ne_nil _ _) fun t ht ↦ by
    cases hread : Literal.read t with
    | ok d => exact ⟨d, rfl⟩
    | error e =>
      have hread' := hok t ht
      rw [hread] at hread'
      cases hread'
  have hname : ∀ name ∈ some ['y'], isPlainName name = true := by
    rintro _ ⟨⟩
    rfl
  exact ⟨hsplit, (hstatement (some ['y']) ['s'] ['f'] hname rfl rfl).1⟩

end WaveNotebook.Workspace
