import WaveNotebook.Proofs.Scan.Comment
import WaveNotebook.Proofs.Workspace.Concat

/-!
# Lines with comments

A comment behind a line changes nothing but the text by which the line is remembered or named in
a fault. The marker must be one that the scanners can see: no line break is in it; a quote in
front of it opens a quoted span, so that only a whole line can be a comment then; and blanks at
its ends get lost where they come to stand at an end of the line.
-/

namespace WaveNotebook

open Text Scan

/-- Trimming on the right stops behind the first of two texts. -/
theorem Text.exists_trimRight_append {s t : List Char} (h : EndsVisible s ∨ ¬Blanks t) :
    ∃ t', trimRight (s ++ t) = s ++ t' := by
  by_cases ht : Blanks t
  · refine ⟨[], ?_⟩
    rw [trimRight_append ht, List.append_nil]
    exact (h.resolve_right (not_not_intro ht)).trimRight_eq
  · exact ⟨trimRight t, trimRight_append_of_not_blanks ht s⟩

theorem Text.trimRight_append_append {s t : List Char} (h : EndsVisible s ∨ ¬Blanks t)
    (r : List Char) : trimRight (r ++ (s ++ t)) = r ++ trimRight (s ++ t) := by
  refine trimRight_append_of_not_blanks (fun hblanks ↦ ?_) r
  obtain ⟨hs, ht⟩ := blanks_append_iff.mp hblanks
  obtain ⟨before, c, rfl, hc⟩ := h.resolve_right (not_not_intro ht)
  rw [hs c (by simp)] at hc
  cases hc

namespace Workspace

/-! ## One line -/

theorem execute_line (w : Workspace) {raw : List Char} (h : '\n' ∉ raw)
    (room : Option Nat := none) :
    w.execute raw room = ((w.step 1 raw room).1.map fun out ↦ trimRight (out.getD []),
      (w.step 1 raw room).2) := by
  rw [execute_eq w raw room, lines_of_not_mem h]
  cases hstep : w.step 1 raw room with
  | mk r w' =>
    cases r with
    | error fault =>
      rw [run_cons_error hstep]
      rfl
    | ok out =>
      rw [run_cons_ok hstep]
      cases out with
      | none => rfl
      | some out =>
        have hsingle : joinWith '\n' [out] = out := List.intercalate_singleton ..
        change (Except.ok (trimRight (joinWith '\n' [out])), w') = _
        rw [hsingle]
        rfl

/-- Two calls print the same or fail on their first lines for the same cause, and they leave the
same bindings and matrices. -/
structure SameEffect (p q : Except Fault (List Char) × Workspace) : Prop where
  result : (∃ out, p.1 = .ok out ∧ q.1 = .ok out) ∨ ∃ source source' cause,
    p.1 = .error (.line 1 source cause) ∧ q.1 = .error (.line 1 source' cause)
  scope : p.2.scope = q.2.scope
  session : p.2.session = q.2.session

variable {w : Workspace}

theorem Sound.expected_of_statement (hw : w.Sound) {line : List Char} {fault : Fault}
    {w' : Workspace} (h : w.statement line = (.error fault, w')) : fault.Expected := by
  have hassignment := assignment_yields line
  cases hline : assignment line with
  | error fault' =>
    rw [hline] at hassignment
    rw [statement_of_assignment_error hline] at h
    cases h
    exact hassignment.fault
  | ok p =>
    obtain ⟨target, expression⟩ := p
    have hyields := hw.evaluate_yields expression
    cases hvalue : w.evaluate expression with
    | mk r w₁ =>
      rw [hvalue] at hyields
      cases r with
      | error fault' =>
        rw [statement_of_evaluate_error hline hvalue] at h
        cases h
        exact hyields.fault
      | ok v =>
        rw [statement_of_evaluate_ok hline hvalue] at h
        cases h

/-- Number and text of a line say nothing about the cause of its fault. -/
theorem exists_cause {fault : Fault} (h : fault.Expected) :
    ∃ cause, ∀ number line, lineFault number line fault = .line number (String.ofList line) cause :=
  ⟨_, fun _ _ ↦ if_pos h⟩

/-- Lines with the same code have the same effect. -/
theorem Sound.sameEffect (hw : w.Sound) {raw raw' : List Char} (hraw : '\n' ∉ raw)
    (hraw' : '\n' ∉ raw') (h : ¬w.Passed raw) (h' : ¬w.Passed raw')
    (hcode : w.code raw = w.code raw') : SameEffect (w.execute raw) (w.execute raw') := by
  rw [execute_line w hraw, execute_line w hraw', step_of_not_passed h, step_of_not_passed h', hcode]
  cases hstatement : w.statement (w.code raw') with
  | mk r w' =>
    cases r with
    | error fault =>
      obtain ⟨cause, hcause⟩ := exists_cause (hw.expected_of_statement hstatement)
      dsimp only
      rw [hcause, hcause]
      exact ⟨.inr ⟨_, _, cause, rfl, rfl⟩, rfl, rfl⟩
    | ok out => exact ⟨.inl ⟨_, rfl, rfl⟩, rfl, rfl⟩

/-! ## A line with a comment behind it -/

/-- The text that starts a comment. -/
def marker (w : Workspace) : List Char :=
  w.scope.config.marker.toList

section

variable {line comment : List Char} (hline : ¬Blanks line)
  (h : Unmarked w.marker none line w.marker)

include hline h

theorem not_passed_of_unmarked : ¬w.Passed line := by
  rintro (hnil | hmarker)
  · exact hline (trim_eq_nil_iff.mp hnil)
  · obtain ⟨a, ha, hs⟩ := exists_trimLeft line
    rw [hs] at h
    refine (h.drop_blanks ha).not_prefix_append (fun hnil ↦ hline (trimLeft_eq_nil_iff.mp hnil)) ?_
    exact (hmarker.trans (trimRight_prefix_self _)).trans (List.prefix_append _ _)

variable (hend : EndsVisible w.marker ∨ ¬Blanks comment)

include hend

/-- Behind a line that is not blank, trimming leaves the whole marker. -/
theorem exists_trim_comment : ∃ rest,
    trim (line ++ w.marker ++ comment) = trimLeft line ++ (w.marker ++ rest) ∧
      Unmarked w.marker none (trimLeft line) (w.marker ++ rest) := by
  obtain ⟨a, ha, hs⟩ := exists_trimLeft line
  obtain ⟨rest, hrest⟩ := exists_trimRight_append hend
  refine ⟨rest, ?_, ?_⟩
  · rw [trim, List.append_assoc, trimLeft_append_of_not_blanks hline, trimRight_append_append hend,
      hrest]
  · rw [hs] at h
    exact (h.drop_blanks ha).extend rest

theorem not_passed_comment : ¬w.Passed (line ++ w.marker ++ comment) := by
  obtain ⟨rest, htrim, hrest⟩ := exists_trim_comment hline h hend
  have hne : trimLeft line ≠ [] := fun hnil ↦ hline (trimLeft_eq_nil_iff.mp hnil)
  rintro (hnil | hmarker)
  · rw [htrim] at hnil
    exact hne (List.append_eq_nil_iff.mp hnil).1
  · rw [htrim] at hmarker
    exact hrest.not_prefix_append hne hmarker

/-- The comment is no part of the code of the line. -/
theorem code_comment (hclosed : openQuote none line = none)
    (hquote : ∀ c ∈ w.marker.head?, isQuote c = false) :
    w.code (line ++ w.marker ++ comment) = trim line := by
  obtain ⟨rest, htrim, hrest⟩ := exists_trim_comment hline h hend
  obtain ⟨a, ha, hs⟩ := exists_trimLeft line
  have hopen : openQuote none (trimLeft line) = none := by
    have hpad := openQuote_pad ha blanks_nil (trimLeft line)
    rw [List.append_nil, ← hs, hclosed] at hpad
    exact hpad.symm
  have hmarker : w.marker ≠ [] := by
    intro hnil
    have hne : line ≠ [] := fun hempty ↦ hline (hempty ▸ blanks_nil)
    exact h.not_prefix_append hne (hnil ▸ List.nil_prefix)
  calc
    _ = trim (beforeComment w.marker none (trimLeft line ++ (w.marker ++ rest))) := by
      rw [← htrim]
      rfl
    _ = trim (trimLeft line) := by
      rw [beforeComment_append hopen hrest, beforeComment_marker hmarker hquote, List.append_nil]
    _ = trim line := trim_trimLeft line

end

theorem code_of_unmarked {line : List Char} (hclosed : openQuote none line = none)
    (h : Unmarked w.marker none line w.marker) : w.code line = trim line := by
  obtain ⟨a, b, ha, hb, hs⟩ := exists_trim line
  have hopen : openQuote none (trim line) = none := by
    have hpad := openQuote_pad ha hb (trim line)
    rw [← hs, hclosed] at hpad
    exact hpad.symm
  have hclean : Unmarked w.marker none (trim line) [] := by
    rw [hs, List.append_assoc] at h
    exact (h.drop_blanks ha).of_append
  calc
    w.code line = trim (trim line) := stripComment_of_unmarked hopen hclean
    _ = trim line := trim_trim line

/-- A marker behind blanks makes the whole line a comment. -/
theorem passed_comment {line comment : List Char} (hline : Blanks line)
    (hblank : ∀ c ∈ w.marker.head?, isBlank c = false)
    (hend : EndsVisible w.marker ∨ ¬Blanks comment) : w.Passed (line ++ w.marker ++ comment) := by
  refine .inr ?_
  change w.marker <+: trimRight (trimLeft (line ++ w.marker ++ comment))
  rw [List.append_assoc, trimLeft_append hline]
  cases hmarker : w.marker with
  | nil => exact List.nil_prefix
  | cons c cs =>
    have hc : isBlank c = false := hblank c (by rw [hmarker]; rfl)
    have hvisible : trimLeft (c :: cs ++ comment) = c :: cs ++ comment := by
      unfold trimLeft
      rw [List.cons_append, List.dropWhile_cons_of_neg (by simp [hc])]
    rw [hmarker] at hend
    obtain ⟨rest, hrest⟩ := exists_trimRight_append hend
    rw [hvisible, hrest]
    exact List.prefix_append _ _

/-! ## Comments -/

/-- Whatever comment stands behind a line without markers, whose quotes are closed: a line that is
not blank has the effect that it has without the comment, and a blank line has none. -/
def Transparent (w : Workspace) : Prop :=
  ∀ line comment, '\n' ∉ line → '\n' ∉ comment → openQuote none line = none →
    Unmarked w.marker none line w.marker →
      (¬Blanks line → SameEffect (w.execute (line ++ w.marker ++ comment)) (w.execute line)) ∧
        (Blanks line → w.execute (line ++ w.marker ++ comment) = (.ok [], w))

/-- Comments are transparent for every marker without a line break, unless blanks in it get lost
at an end of the line, or a quote in front of it opens a span. -/
theorem Reachable.execute_comment (hw : Reachable w) (hmarker : '\n' ∉ w.marker)
    {line comment : List Char} (hline : '\n' ∉ line) (hcomment : '\n' ∉ comment)
    (hclosed : openQuote none line = none) (h : Unmarked w.marker none line w.marker)
    (hend : EndsVisible w.marker ∨ ¬Blanks comment) :
    (¬Blanks line → (∀ c ∈ w.marker.head?, isQuote c = false) →
        SameEffect (w.execute (line ++ w.marker ++ comment)) (w.execute line)) ∧
      (Blanks line → (∀ c ∈ w.marker.head?, isBlank c = false) →
        w.execute (line ++ w.marker ++ comment) = (.ok [], w)) := by
  have hwhole : '\n' ∉ line ++ w.marker ++ comment := by
    simp only [List.mem_append, not_or]
    exact ⟨⟨hline, hmarker⟩, hcomment⟩
  constructor
  · intro hblanks hquote
    refine hw.sound.sameEffect hwhole hline (not_passed_comment hblanks h hend)
      (not_passed_of_unmarked hblanks h) ?_
    rw [code_comment hblanks h hend hclosed hquote, code_of_unmarked hclosed h]
  · intro hblanks hblank
    rw [execute_line w hwhole, step_of_passed (passed_comment hblanks hblank hend)]
    rfl

/-- A comment with an open quote and an open bracket, behind a line with a marker in quotes. -/
theorem execute_comment_new :
    SameEffect ((new .default .standard).execute
        ("s.save(\"a//b\")".toList ++ (new .default .standard).marker ++ " it's = (".toList))
      ((new .default .standard).execute "s.save(\"a//b\")".toList) :=
  (Reachable.execute_comment (.new Config.accepted_default) (by decide +kernel) (by decide)
    (by decide) (by decide) (by decide +kernel) (.inl ⟨['/'], '/', rfl, by decide⟩)).1
    (by decide) fun _ hc ↦ Option.some.inj hc ▸ rfl

/-! ## Markers that are not transparent -/

/-- A new workspace with the default settings but for the marker. -/
def markedBy (marker : String) : Workspace :=
  new { Config.default with marker := marker } .standard

theorem reachable_markedBy {marker : String} (h : ¬Blanks marker.toList) :
    Reachable (markedBy marker) := by
  refine .new ⟨[("comment_marker", .text marker)], ?_⟩
  have hmarker : Config.markerOf (.text marker) = .ok marker := by
    unfold Config.markerOf
    dsimp only
    rw [if_neg]
    rw [List.all_eq_true]
    exact h
  change (Config.rateOf _ >>= fun rate ↦ Config.markerOf (.text marker) >>= fun marker ↦ _) = _
  rw [hmarker]
  rfl

section

variable (line comment : List Char) (hline : '\n' ∉ line) (hcomment : '\n' ∉ comment)
  (hclosed : openQuote none line = none) (h : Unmarked w.marker none line w.marker)
  (hfail : (w.execute (line ++ w.marker ++ comment)).1.toOption.isNone = true)

include hline hcomment hclosed h hfail

theorem not_transparent_of_fails (hblanks : ¬Blanks line)
    (hok : (w.execute line).1.toOption.isSome = true) : ¬w.Transparent := by
  intro htransparent
  obtain ⟨hresult, -, -⟩ := (htransparent line comment hline hcomment hclosed h).1 hblanks
  obtain ⟨out, hout, -⟩ | ⟨_, _, _, -, herror⟩ := hresult
  · rw [hout] at hfail
    cases hfail
  · rw [herror] at hok
    cases hok

theorem not_transparent_of_blank_fails (hblanks : Blanks line) : ¬w.Transparent := by
  intro htransparent
  have hquiet := (htransparent line comment hline hcomment hclosed h).2 hblanks
  rw [hquiet] at hfail
  cases hfail

end

/-- Markers that the scanners cannot see everywhere: with a quote in front, with a line break in it,
and with blanks at either end. -/
theorem not_transparent :
    (Reachable (markedBy "'") ∧ ¬(markedBy "'").Transparent) ∧
      (Reachable (markedBy "#\n#") ∧ ¬(markedBy "#\n#").Transparent) ∧
      (Reachable (markedBy " #") ∧ ¬(markedBy " #").Transparent) ∧
      Reachable (markedBy "# ") ∧ ¬(markedBy "# ").Transparent := by
  refine ⟨⟨reachable_markedBy (by decide), ?_⟩, ⟨reachable_markedBy (by decide), ?_⟩,
    ⟨reachable_markedBy (by decide), ?_⟩, reachable_markedBy (by decide), ?_⟩
  · -- the quote in "sine' c" is not closed
    exact not_transparent_of_fails "sine".toList " c".toList (by decide) (by decide) (by decide)
      (by decide +kernel) (by decide +kernel) (by decide) (by decide +kernel)
  · -- "sine#" is a line of its own
    exact not_transparent_of_fails "sine".toList " c".toList (by decide) (by decide) (by decide)
      (by decide +kernel) (by decide +kernel) (by decide) (by decide +kernel)
  · -- "# c" does not start with the marker any more
    exact not_transparent_of_blank_fails [] " c".toList (by decide) (by decide) (by decide)
      (by decide +kernel) (by decide +kernel) (by decide)
  · -- "sine#" does not hold the marker any more
    exact not_transparent_of_fails "sine".toList [] (by decide) (by decide) (by decide)
      (by decide +kernel) (by decide +kernel) (by decide) (by decide +kernel)

end Workspace

end WaveNotebook
