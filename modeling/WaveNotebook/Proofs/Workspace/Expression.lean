import WaveNotebook.Proofs.Number.Numeral
import WaveNotebook.Proofs.Outcome
import WaveNotebook.Proofs.Scan.Balance
import WaveNotebook.Proofs.Scan.Paren
import WaveNotebook.Proofs.Text.Trim
import WaveNotebook.Workspace.Basic

/-!
# Reading calls

A call is taken apart at its first parenthesis, the one that closes it, the last dot before and
the commas between. If each argument is a text of one piece, these are the places where the call
has been put together, whatever stands in the arguments. The bound on the length of a text is
never reached, since an argument is shorter than its call.
-/

namespace WaveNotebook

open Text Scan Workspace

/-! ## Trimming what is joined -/

namespace Workspace

variable {sep : Char} {p : List Char}

theorem trimLeft_joinWith (hp : ¬Blanks p) (pieces : List (List Char)) :
    trimLeft (joinWith sep (p :: pieces)) = joinWith sep (trimLeft p :: pieces) := by
  unfold joinWith
  cases pieces with
  | nil => rw [List.intercalate_singleton, List.intercalate_singleton]
  | cons q pieces =>
    rw [List.intercalate_cons_cons, List.intercalate_cons_cons, List.append_assoc,
      trimLeft_append_of_not_blanks hp, List.append_assoc]

theorem blanks_of_joinWith {pieces : List (List Char)} (h : Blanks (joinWith sep (p :: pieces))) :
    Blanks p := by
  unfold joinWith at h
  cases pieces with
  | nil =>
    rw [List.intercalate_singleton] at h
    exact h
  | cons q pieces =>
    rw [List.intercalate_cons_cons, List.append_assoc] at h
    exact (blanks_append_iff.mp h).1

theorem exists_joinWith_concat (sep : Char) (pieces : List (List Char)) :
    ∃ front, ∀ p, joinWith sep (pieces ++ [p]) = front ++ p := by
  unfold joinWith
  induction pieces with
  | nil => exact ⟨[], fun p ↦ List.intercalate_singleton ..⟩
  | cons q pieces ih =>
    obtain ⟨front, hfront⟩ := ih
    refine ⟨q ++ [sep] ++ front, fun p ↦ ?_⟩
    have hne : pieces ++ [p] ≠ [] := by simp
    obtain ⟨r, rest, hrest⟩ := List.exists_cons_of_ne_nil hne
    have hp := hfront p
    rw [hrest] at hp
    rw [List.cons_append, hrest, List.intercalate_cons_cons, hp, List.append_assoc _ front]

theorem trimRight_joinWith_concat (hp : ¬Blanks p) (pieces : List (List Char)) :
    trimRight (joinWith sep (pieces ++ [p])) = joinWith sep (pieces ++ [trimRight p]) := by
  obtain ⟨front, hfront⟩ := exists_joinWith_concat sep pieces
  rw [hfront, hfront, trimRight_append_of_not_blanks hp]

theorem infix_joinWith {pieces : List (List Char)} (hp : p ∈ pieces) :
    p <:+: joinWith sep pieces := by
  induction pieces with
  | nil => cases hp
  | cons q pieces ih =>
    cases pieces with
    | nil =>
      obtain rfl := List.mem_singleton.mp hp
      simp [joinWith]
    | cons r rest =>
      rw [joinWith_cons_cons]
      obtain rfl | hp := List.mem_cons.mp hp
      · exact (List.prefix_append p _).isInfix
      · exact ((ih hp).trans (List.suffix_cons sep _).isInfix).trans
          (List.suffix_append q _).isInfix

end Workspace

namespace Expr

/-! ## The texts between the commas -/

/-- A text that can be an argument: there is something in it, and its commas are in quotes or in
brackets that are closed. -/
structure IsArgument (a : List Char) : Prop where
  visible : ¬Blanks a
  piece : IsPiece ',' a

variable {a t : List Char}

theorem IsArgument.trimLeft (h : IsArgument a) : IsArgument (trimLeft a) := by
  obtain ⟨b, hb, ha⟩ := exists_trimLeft a
  refine ⟨fun hblanks ↦ h.visible ?_, ?_⟩
  · rw [ha]
    exact blanks_append_iff.mpr ⟨hb, hblanks⟩
  · have hpiece := h.piece
    rw [ha] at hpiece
    exact (isPiece_append_left (by decide) hb).mp hpiece

theorem IsArgument.trimRight (h : IsArgument a) : IsArgument (trimRight a) := by
  obtain ⟨b, hb, ha⟩ := exists_trimRight a
  refine ⟨fun hblanks ↦ h.visible ?_, ?_⟩
  · rw [ha]
    exact blanks_append_iff.mpr ⟨hblanks, hb⟩
  · have hpiece := h.piece
    rw [ha] at hpiece
    exact (isPiece_pad (by decide) blanks_nil hb).mp hpiece

/-- The blanks at both ends of joined arguments are those of the first and of the last one. -/
theorem exists_trim_joinWith {as : List (List Char)} (h : ∀ b ∈ a :: as, IsArgument b) :
    ∃ pieces, trim (joinWith ',' (a :: as)) = joinWith ',' pieces ∧ pieces ≠ [] ∧
      (∀ b ∈ pieces, IsArgument b) ∧ pieces.map trim = (a :: as).map trim := by
  have ha : IsArgument a := h a List.mem_cons_self
  obtain hnil | ⟨front, last, hsplit⟩ := List.eq_nil_or_concat (Text.trimLeft a :: as)
  · cases hnil
  rw [List.concat_eq_append] at hsplit
  have hleft : ∀ b ∈ front ++ [last], IsArgument b := by
    intro b hb
    rw [← hsplit] at hb
    obtain rfl | hb := List.mem_cons.mp hb
    · exact ha.trimLeft
    · exact h b (List.mem_cons_of_mem _ hb)
  have hlast : IsArgument last := hleft last (by simp)
  refine ⟨front ++ [Text.trimRight last], ?_, by simp, fun b hb ↦ ?_, ?_⟩
  · rw [trim, trimLeft_joinWith ha.visible, hsplit, trimRight_joinWith_concat hlast.visible]
  · obtain hb | hb := List.mem_append.mp hb
    · exact hleft b (List.mem_append_left _ hb)
    · rw [List.mem_singleton.mp hb]
      exact hlast.trimRight
  · have hmap := congrArg (List.map trim) hsplit
    rw [List.map_cons, trim_trimLeft] at hmap
    rw [List.map_cons, hmap]
    simp

/-- The arguments of a call are found again, without the blanks around them. -/
theorem splitArguments_joinWith {as : List (List Char)} (h : ∀ a ∈ as, IsArgument a) :
    splitArguments (trim (joinWith ',' as)) = .ok (as.map trim) := by
  cases as with
  | nil => rfl
  | cons a as =>
    have htext : trim (joinWith ',' (a :: as)) ≠ [] := fun hnil ↦
      (h a List.mem_cons_self).visible (blanks_of_joinWith (trim_eq_nil_iff.mp hnil))
    have hsome : ((a :: as).map trim).any List.isEmpty = false := by
      rw [List.any_eq_false]
      intro b hb hnil
      obtain ⟨b', hb', rfl⟩ := List.mem_map.mp hb
      exact (h b' hb').visible (trim_eq_nil_iff.mp (List.isEmpty_iff.mp hnil))
    obtain ⟨pieces, htrim, hne, hpieces, hmap⟩ := exists_trim_joinWith h
    unfold splitArguments
    rw [if_neg (by simpa using htext), htrim,
      splitTopLevel_joinWith ⟨rfl, rfl, rfl⟩ hne fun b hb ↦ (hpieces b hb).piece]
    change (if (pieces.map trim).any List.isEmpty then _ else _) = _
    rw [hmap, hsome]
    rfl

/-- The arguments are pieces of the text between the parentheses. -/
theorem infix_of_splitArguments {text : List Char} {pieces : List (List Char)}
    (h : splitArguments text = .ok pieces) : ∀ p ∈ pieces, p <:+: text := by
  unfold splitArguments at h
  split at h
  · cases h
    exact fun _ hp ↦ nomatch hp
  · obtain ⟨parts, hparts, h⟩ := bind_eq_ok_iff.mp h
    dsimp only at h
    split at h
    · cases h
    · cases h
      intro p hp
      obtain ⟨part, hpart, rfl⟩ := List.mem_map.mp hp
      rw [← joinWith_of_splitFrom hparts]
      exact (infix_trim part).trans (infix_joinWith hpart)

/-! ## The parts of a call -/

theorem takeWhile_before {before : List Char} (hbefore : '(' ∉ before) (behind : List Char) :
    (before ++ '(' :: behind).takeWhile (· != '(') = before := by
  rw [List.takeWhile_append_of_pos, List.takeWhile_cons_of_neg (by simp), List.append_nil]
  intro c hc
  rw [bne_iff_ne]
  rintro rfl
  exact hbefore hc

/-- A call is cut at its first parenthesis and the one that closes it, if the text between them can
be split. -/
theorem callParts_eq {before inner : List Char} {pieces : List (List Char)}
    (hbefore : '(' ∉ before) (hinner : splitTopLevel ',' inner = .ok pieces)
    (behind : List Char) :
    callParts (before ++ '(' :: (inner ++ ')' :: behind)) =
      if !(trim behind).isEmpty then .error (.afterCall (String.ofList (trim behind)))
      else if (trim before).isEmpty then
        .error (.notEvaluable (String.ofList (before ++ '(' :: (inner ++ ')' :: behind))))
      else .ok (trim before, trim inner) := by
  unfold callParts
  dsimp only
  rw [takeWhile_before hbefore, matchingParen_append hinner]
  dsimp only [Bind.bind, Except.bind]
  rw [drop_closer, take_closer, drop_opener, List.take_left]
  rfl

/-- The text between the parentheses, if it can be split. -/
theorem callParts_append {before inner : List Char} {pieces : List (List Char)}
    (hbefore : '(' ∉ before) (hvisible : ¬Blanks before)
    (hinner : splitTopLevel ',' inner = .ok pieces) :
    callParts (before ++ '(' :: (inner ++ [')'])) = .ok (trim before, trim inner) := by
  have hcallee : (trim before).isEmpty = false := by
    rw [List.isEmpty_eq_false_iff]
    exact fun hnil ↦ hvisible (trim_eq_nil_iff.mp hnil)
  rw [callParts_eq hbefore hinner, hcallee]
  rfl

/-- The text between the parentheses is a piece of what stands behind the first one. -/
theorem infix_of_callParts {s callee text : List Char} (h : callParts s = .ok (callee, text)) :
    text <:+: s.drop ((s.takeWhile (· != '(')).length + 1) := by
  unfold callParts at h
  obtain ⟨stop, -, h⟩ := bind_eq_ok_iff.mp h
  dsimp only at h
  split at h
  · cases h
  · split at h
    · cases h
    · cases h
      rw [List.drop_take]
      exact (infix_trim _).trans (List.take_prefix _ _).isInfix

theorem length_le_of_callParts {s callee text : List Char} (h : callParts s = .ok (callee, text)) :
    text.length ≤ s.length - 1 := by
  have hlength := (infix_of_callParts h).length_le
  rw [List.length_drop] at hlength
  omega

/-- The texts on both sides of the last dot. -/
theorem splitLastDot_append (a : List Char) {b : List Char} (hb : '.' ∉ b) :
    splitLastDot (a ++ '.' :: b) = some (a, b) := by
  have hafter : ((a ++ '.' :: b).reverse.takeWhile (· != '.')).reverse = b := by
    rw [List.reverse_append, List.reverse_cons, List.append_assoc, List.takeWhile_append_of_pos]
    · simp
    · intro c hc
      rw [bne_iff_ne]
      rintro rfl
      exact hb (List.mem_reverse.mp hc)
  have hlength : (a ++ '.' :: b).length - b.length - 1 = a.length := by
    simp
    omega
  unfold splitLastDot
  rw [if_pos (by simp)]
  dsimp only
  rw [hafter, hlength, List.take_left]

theorem splitLastDot_of_not_mem {s : List Char} (h : '.' ∉ s) : splitLastDot s = none :=
  if_neg (by simpa using h)

/-! ## Texts and their expressions -/

theorem argumentsWith_congr {f g : List Char → Expr} {text : List Char}
    (h : ∀ s, s.length ≤ text.length → f s = g s) :
    argumentsWith f text = argumentsWith g text := by
  unfold argumentsWith
  cases hsplit : splitArguments text with
  | error fault => rfl
  | ok pieces =>
    exact List.map_congr_left fun p hp ↦ h p (infix_of_splitArguments hsplit p hp).length_le

/-- Every bound that is not below the length of the text gives the same expression. -/
theorem readWithin_congr {n m : Nat} {s : List Char} (hn : s.length ≤ n) (hm : s.length ≤ m) :
    readWithin n s = readWithin m s := by
  induction n generalizing m s with
  | zero =>
    obtain rfl := List.length_eq_zero_iff.mp (Nat.le_zero.mp hn)
    cases m <;> rfl
  | succ n ih =>
    cases m with
    | zero =>
      obtain rfl := List.length_eq_zero_iff.mp (Nat.le_zero.mp hm)
      rfl
    | succ m =>
      have htrim := length_trim_le s
      -- the text between the parentheses is shorter, so both bounds suffice for its pieces
      have hinner : ∀ callee text, callParts (trim s) = .ok (callee, text) → ∀ t : List Char,
          t.length ≤ text.length → readWithin n t = readWithin m t := by
        intro callee text hparts t ht
        have htext := length_le_of_callParts hparts
        exact ih (by omega) (by omega)
      unfold readWithin
      dsimp only
      split
      · rfl
      · split
        · cases hparts : callParts (trim s) with
          | error fault => rfl
          | ok parts =>
            obtain ⟨callee, text⟩ := parts
            dsimp only
            cases splitLastDot callee with
            | none =>
              dsimp only
              rw [argumentsWith_congr (hinner callee text hparts)]
            | some p =>
              dsimp only
              rw [argumentsWith_congr fun t ht ↦ by rw [hinner callee text hparts t ht]]
        · rfl

/-- The expression of a method argument. -/
def readMethodArgument (s : List Char) : Expr :=
  if isLiteral s then ofLiteral s else read s

theorem readWithin_eq_read {n : Nat} {s : List Char} (h : s.length ≤ n) : readWithin n s = read s :=
  readWithin_congr h (Nat.le_refl _)

@[simp]
theorem read_trim (s : List Char) : read (trim s) = read s := by
  rw [← readWithin_eq_read (length_trim_le s)]
  change readWithin s.length (trim s) = readWithin s.length s
  cases s.length with
  | zero => rfl
  | succ bound =>
    unfold readWithin
    rw [trim_trim]

theorem exists_length_of_trim_ne_nil {s : List Char} (h : trim s ≠ []) :
    ∃ bound, s.length = bound + 1 := by
  refine Nat.exists_eq_succ_of_ne_zero fun hzero ↦ h ?_
  rw [List.length_eq_zero_iff.mp hzero]
  rfl

theorem read_of_readNumber? {s : List Char} {x : Float} (h : readNumber? s = some x) :
    read s = .number x := by
  obtain ⟨n, hn, -⟩ := exists_of_readNumber? h
  have hparen : '(' ∉ trim s := by
    intro hmem
    have hkind := hn.isDigit_or_mem '(' hmem
    revert hkind
    decide
  have htrim : trim s ≠ [] := by
    intro hnil
    rw [readNumber?, hnil] at h
    cases h
  unfold read
  obtain ⟨bound, hlength⟩ := exists_length_of_trim_ne_nil htrim
  have hnumber : readNumber? (trim s) = some x := by
    rw [readNumber?, trim_trim]
    exact h
  rw [hlength]
  unfold readWithin
  dsimp only
  rw [if_neg (by simpa using htrim), if_neg (by simpa using hparen), hnumber]

/-- What a call is. -/
theorem read_of_callParts {s callee text : List Char} (h : callParts (trim s) = .ok (callee, text))
    (hparen : '(' ∈ trim s) :
    read s = match splitLastDot callee with
      | some (receiver, member) =>
        .method (String.ofList (trim receiver)) (String.ofList (trim member))
          (argumentsWith readMethodArgument text)
      | none => .call (String.ofList callee) text (argumentsWith read text) := by
  have htrim : trim s ≠ [] := List.ne_nil_of_mem hparen
  have htext := length_le_of_callParts h
  have hle := length_trim_le s
  change readWithin s.length s = _
  obtain ⟨bound, hlength⟩ := exists_length_of_trim_ne_nil htrim
  have hread : ∀ t : List Char, t.length ≤ text.length → readWithin bound t = read t :=
    fun t ht ↦ readWithin_eq_read (by omega)
  rw [hlength]
  unfold readWithin
  dsimp only
  rw [if_neg (by simpa using htrim), if_pos (by simpa using hparen), h]
  dsimp only
  cases splitLastDot callee with
  | none =>
    dsimp only
    rw [argumentsWith_congr hread]
  | some p =>
    dsimp only
    rw [argumentsWith_congr fun t ht ↦ by rw [hread t ht]]
    rfl

/-! ## Calls that have been put together -/

section

variable {before blanks behind : List Char} {as : List (List Char)}

theorem exists_splitTopLevel (hblanks : Blanks blanks) (has : ∀ a ∈ as, IsArgument a) :
    ∃ pieces, splitTopLevel ',' (blanks ++ joinWith ',' as) = .ok pieces := by
  cases as with
  | nil =>
    refine ⟨[blanks ++ []], (isPiece_append_left (by decide) hblanks).mpr ?_⟩
    rfl
  | cons a as =>
    have hjoin : blanks ++ joinWith ',' (a :: as) = joinWith ',' ((blanks ++ a) :: as) := by
      unfold joinWith
      cases as <;> simp [List.intercalate_cons_cons]
    refine ⟨(blanks ++ a) :: as, ?_⟩
    rw [hjoin]
    refine splitTopLevel_joinWith ⟨rfl, rfl, rfl⟩ (List.cons_ne_nil _ _) fun p hp ↦ ?_
    obtain rfl | hp := List.mem_cons.mp hp
    · exact (isPiece_append_left (by decide) hblanks).mpr (has a List.mem_cons_self).piece
    · exact (has p (List.mem_cons_of_mem _ hp)).piece

theorem argumentsWith_joinWith (f : List Char → Expr) (hblanks : Blanks blanks)
    (has : ∀ a ∈ as, IsArgument a) :
    argumentsWith f (trim (blanks ++ joinWith ',' as)) = as.map fun a ↦ f (trim a) := by
  have hpad := trim_pad hblanks blanks_nil (joinWith ',' as)
  rw [List.append_nil] at hpad
  unfold argumentsWith
  rw [hpad, splitArguments_joinWith has]
  exact List.map_map

theorem trim_call (hvisible : ¬Blanks before) (hbehind : Blanks behind) (inner : List Char) :
    trim (before ++ '(' :: (inner ++ ')' :: behind)) =
      Text.trimLeft before ++ '(' :: (inner ++ [')']) := by
  have hends : EndsVisible (Text.trimLeft before ++ '(' :: (inner ++ [')'])) :=
    ⟨Text.trimLeft before ++ '(' :: inner, ')', by simp, by decide⟩
  have htext : before ++ '(' :: (inner ++ ')' :: behind) =
      before ++ ('(' :: (inner ++ [')']) ++ behind) := by simp
  rw [trim, htext, trimLeft_append_of_not_blanks hvisible, ← List.append_assoc,
    trimRight_append hbehind, hends.trimRight_eq]

/-- A call is read as what it has been put together from. -/
theorem read_call (hparen : '(' ∉ before) (hvisible : ¬Blanks before) (hblanks : Blanks blanks)
    (has : ∀ a ∈ as, IsArgument a) (hbehind : Blanks behind) :
    read (before ++ '(' :: (blanks ++ joinWith ',' as ++ ')' :: behind)) =
      match splitLastDot (trim before) with
      | some (receiver, member) =>
        .method (String.ofList (trim receiver)) (String.ofList (trim member))
          (as.map fun a ↦ readMethodArgument (trim a))
      | none => .call (String.ofList (trim before)) (trim (blanks ++ joinWith ',' as))
          (as.map fun a ↦ read (trim a)) := by
  obtain ⟨pieces, hpieces⟩ := exists_splitTopLevel hblanks has
  obtain ⟨front, hfront, hbefore⟩ := exists_trimLeft before
  have hparen' : '(' ∉ Text.trimLeft before := by
    rw [hbefore] at hparen
    exact fun hmem ↦ hparen (List.mem_append_right _ hmem)
  have hvisible' : ¬Blanks (Text.trimLeft before) := by
    rw [hbefore] at hvisible
    exact fun hall ↦ hvisible (blanks_append_iff.mpr ⟨hfront, hall⟩)
  have hparts := callParts_append hparen' hvisible' hpieces
  rw [← trim_call hvisible hbehind, trim_trimLeft] at hparts
  rw [read_of_callParts hparts (by rw [trim_call hvisible hbehind]; simp),
    argumentsWith_joinWith _ hblanks has, argumentsWith_joinWith _ hblanks has]

end

end Expr

/-! ## Assignments -/

/-- What a line evaluates is the line, or what stands behind the first of its pieces. -/
theorem Workspace.split_of_assignment {line expression : List Char} {target : Option String}
    (h : assignment line = .ok (target, expression)) :
    ∃ pieces, splitTopLevel '=' line = .ok pieces ∧ (expression = line ∨
      ∃ first piece rest, pieces = first :: piece :: rest ∧
        expression = trim (joinWith '=' (piece :: rest))) := by
  unfold assignment at h
  cases hsplit : splitTopLevel '=' line with
  | error fault =>
    rw [hsplit] at h
    cases h
  | ok pieces =>
    rw [hsplit] at h
    dsimp only [Except.mapError] at h
    refine ⟨pieces, rfl, ?_⟩
    split at h
    · cases h
    · rename_i first piece rest heq
      cases heq
      split at h
      · cases h
      · split at h
        · cases h
        · cases h
          exact .inr ⟨first, piece, rest, rfl, rfl⟩
    · cases h
      exact .inl rfl

/-- The expression of a statement is a piece of its text. -/
theorem Workspace.infix_of_assignment {line expression : List Char} {target : Option String}
    (h : assignment line = .ok (target, expression)) : expression <:+: line := by
  obtain ⟨pieces, hsplit, rfl | ⟨first, piece, rest, rfl, rfl⟩⟩ := split_of_assignment h
  · exact List.infix_rfl
  · rw [← joinWith_of_splitFrom hsplit, joinWith_cons_cons]
    exact ((infix_trim _).trans (List.suffix_cons '=' _).isInfix).trans
      (List.suffix_append first _).isInfix

end WaveNotebook
