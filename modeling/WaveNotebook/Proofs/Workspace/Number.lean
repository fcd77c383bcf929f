import WaveNotebook.Proofs.Literal.Number
import WaveNotebook.Proofs.Workspace.Call

/-!
# Numbers in statements

A number means the same wherever it stands: as an expression of its own, as an argument of a call,
as an entry of a grid and as the value of an option.
-/

namespace WaveNotebook

open Text Scan

/-! ## Expressions and arguments -/

namespace Expr

variable {s : List Char} {x : Float}

theorem readNumber?_trim (s : List Char) : readNumber? (trim s) = readNumber? s := by
  rw [readNumber?, trim_trim, readNumber?]

theorem readNumber?_of_readWithin {bound : ℕ} (h : readWithin bound s = .number x) :
    readNumber? s = some x := by
  cases bound with
  | zero => cases h
  | succ bound =>
    unfold readWithin at h
    dsimp only at h
    rw [readNumber?_trim] at h
    split at h
    · cases h
    split at h
    · -- a text with a parenthesis is a call or malformed
      split at h
      · cases h
      · split at h <;> cases h
    · split at h
      · rename_i y hy
        cases h
        exact hy
      · cases h

theorem read_eq_number_iff : read s = .number x ↔ readNumber? s = some x :=
  ⟨readNumber?_of_readWithin, read_of_readNumber?⟩

theorem ofLiteral_ne_number : ofLiteral s ≠ .number x := by
  unfold ofLiteral
  cases Literal.read s <;> exact Expr.noConfusion

/-- Whether the callee takes data literals makes no difference to a number. -/
theorem readArgument_eq_number_iff (literals : Bool) :
    readArgument literals (trim s) = .number x ↔ readNumber? s = some x := by
  have hread : read (trim s) = .number x ↔ readNumber? s = some x := by
    rw [read_trim, read_eq_number_iff]
  unfold readArgument readMethodArgument
  cases literals with
  | false => exact hread
  | true =>
    rw [if_pos rfl]
    constructor
    · intro h
      split at h
      · exact absurd h ofLiteral_ne_number
      · exact hread.mp h
    · intro h
      rw [not_isLiteral_of_readNumber? h, if_neg Bool.false_ne_true]
      exact hread.mpr h

theorem isArgument_of_readNumber? (h : readNumber? s = some x) : IsArgument s := by
  have hdenotes : Literal.Denotes s (.number x) := (Literal.denotesPart_number_iff.mpr h).denotes
  exact ⟨hdenotes.not_blanks, hdenotes.isPiece⟩

/-- A number between other arguments. -/
theorem argumentsWith_number (literals : Bool) {front behind : List (List Char)}
    (hothers : ∀ a ∈ front ++ behind, IsArgument a) (h : readNumber? s = some x) :
    argumentsWith (readArgument literals) (trim (Workspace.joinWith ',' (front ++ s :: behind))) =
      (front.map fun a ↦ readArgument literals (trim a)) ++
        .number x :: behind.map fun a ↦ readArgument literals (trim a) := by
  have hall : ∀ a ∈ front ++ s :: behind, IsArgument a := by
    intro a ha
    obtain ha | ha := List.mem_append.mp ha
    · exact hothers a (List.mem_append_left _ ha)
    · obtain rfl | ha := List.mem_cons.mp ha
      · exact isArgument_of_readNumber? h
      · exact hothers a (List.mem_append_right _ ha)
  rw [← List.nil_append (Workspace.joinWith ',' _), argumentsWith_joinWith _ blanks_nil hall,
    List.map_append, List.map_cons, (readArgument_eq_number_iff literals).mpr h]

end Expr

theorem Workspace.evaluate_of_readNumber? (w : Workspace) {t : List Char} {x : Float}
    (h : readNumber? t = some x) : w.evaluate t = (.ok (.number x), w) := by
  unfold Workspace.evaluate
  rw [Expr.read_of_readNumber? h]
  rfl

/-! ## All places -/

/-- The reader of numbers and the reader of literals agree on every text. What they accept is a
number as an expression and as an argument, and between the brackets of a grid and the braces of an
option bag as well. -/
theorem number_readers_agree :
    (∀ t x, readNumber? t = some x ↔ Literal.read t = .ok (.number x)) ∧
      (∀ t, readNumber? t = none ↔
        (∃ e, Literal.read t = .error e) ∨ ∃ d, Literal.read t = .ok d ∧ Literal.NonNumber d) ∧
      (∀ t x, readNumber? t = some x ↔ Expr.read t = .number x) ∧
      (∀ (w : Workspace) t x, readNumber? t = some x → w.evaluate t = (.ok (.number x), w)) ∧
      (∀ literals t x,
        readNumber? t = some x ↔ Expr.readArgument literals (trim t) = .number x) ∧
      (∀ literals front t x behind, (∀ a ∈ front ++ behind, Expr.IsArgument a) →
        readNumber? t = some x →
          Expr.argumentsWith (Expr.readArgument literals)
              (trim (Workspace.joinWith ',' (front ++ t :: behind))) =
            (front.map fun a ↦ Expr.readArgument literals (trim a)) ++
              .number x :: behind.map fun a ↦ Expr.readArgument literals (trim a)) ∧
      (∀ rows values cols,
        List.Forall₂ (List.Forall₂ fun t x ↦ readNumber? t = some x) rows values →
          values ≠ [] → 0 < cols → (∀ value ∈ values, value.length = cols) →
            Literal.readGrid (Literal.listText (rows.map Literal.listText)) = .ok values) ∧
      ∀ front behind before after key t x,
        List.Forall₂ Literal.DenotesField front before →
          List.Forall₂ Literal.DenotesField behind after → isPlainName key = true →
            readNumber? t = some x →
              Literal.readOptions (Literal.recordText (front ++ (key, t) :: behind)) =
                .ok (Record.ofPairs (before ++ (String.ofList key, .number x) :: after)) := by
  refine ⟨fun t x ↦ Literal.read_eq_number_iff.symm, fun t ↦ Literal.readNumber?_eq_none_iff,
    fun t x ↦ Expr.read_eq_number_iff.symm, fun w t x ↦ w.evaluate_of_readNumber?,
    fun literals t x ↦ (Expr.readArgument_eq_number_iff literals).symm,
    fun literals front t x behind ↦ Expr.argumentsWith_number literals, ?_, ?_⟩
  · intro rows values cols h hne hcols hlength
    refine Literal.readGrid_listText (h.imp fun row value hrow ↦ hrow.imp fun t x ht ↦ ?_) hne
      hcols hlength
    exact Literal.denotesPart_number_iff.mpr ht
  · intro front behind before after key t x hfront hbehind hkey h
    have hfield : Literal.DenotesField (key, t) (String.ofList key, .number x) :=
      ⟨hkey, rfl, Literal.denotesPart_number_iff.mpr h⟩
    exact Literal.readOptions_recordText (List.rel_append hfront (.cons hfield hbehind)) (by simp)

/-- Numbers that are spelled unevenly: with a sign, without a digit on one side of the point, with
an exponent or with blanks of several kinds. -/
theorem number_readers_agree_unevenSpellings :
    (∀ w : Workspace, w.evaluate "\t-2.5e3 ".toList = (.ok (.number (-2500.0)), w)) ∧
      Expr.argumentsWith (Expr.readArgument true) "tone, .5 ,x".toList =
        [.name "tone", .number 0.5, .name "x"] ∧
      Literal.readGrid "[[ +1 ,.5],[2E1,-3.]]".toList = .ok [[1.0, 0.5], [20.0, -3.0]] ∧
      Literal.readOptions "{on:true,rate: 8e3}".toList =
        .ok [("on", .bool true), ("rate", .number 8000.0)] := by
  obtain ⟨-, -, -, hexpression, -, hargument, hgrid, hoption⟩ := number_readers_agree
  have hplus : readNumber? " +1 ".toList = some 1.0 := by decide +kernel
  have hpoint : readNumber? ".5".toList = some 0.5 := by decide +kernel
  have hletter : readNumber? "2E1".toList = some 20.0 := by decide +kernel
  have hminus : readNumber? "-3.".toList = some (-3.0) := by decide +kernel
  have hname : ∀ name, isPlainName name = true → Expr.IsArgument name := fun name h ↦
    ⟨not_blanks_of_isPlainName h,
      Literal.isPiece_of_inert (Literal.inert_of_isPlainName h) (by decide)⟩
  have hon : Literal.DenotesField ("on".toList, "true".toList) ("on", .bool true) :=
    ⟨rfl, rfl, _, .token (a := "true".toList) (.word rfl) .nil, .true⟩
  refine ⟨fun w ↦ hexpression w _ _ (by decide +kernel), ?_, ?_, ?_⟩
  · refine hargument true ["tone".toList] " .5 ".toList 0.5 ["x".toList] ?_ (by decide +kernel)
    intro a ha
    obtain rfl | rfl : a = "tone".toList ∨ a = "x".toList := by simpa using ha
    · exact hname _ rfl
    · exact hname _ rfl
  · exact hgrid [[" +1 ".toList, ".5".toList], ["2E1".toList, "-3.".toList]]
      [[1.0, 0.5], [20.0, -3.0]] 2
      (.cons (.cons hplus (.cons hpoint .nil)) (.cons (.cons hletter (.cons hminus .nil)) .nil))
      (List.cons_ne_nil _ _) (by decide) (by simp)
  · exact hoption [("on".toList, "true".toList)] [] [("on", .bool true)] [] "rate".toList
      " 8e3".toList 8000.0 (.cons hon .nil) .nil rfl (by decide +kernel)

end WaveNotebook
