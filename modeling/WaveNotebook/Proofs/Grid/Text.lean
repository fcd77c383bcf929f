import WaveNotebook.Proofs.Grid.Nested
import WaveNotebook.Proofs.Number.Layout

/-!
# Printed grids read back

The text of a grid has a line with the dimensions and a line for each row. The text of a finite
number has no blank in it, so that the lines end where the rows do and the tabs in a line stand
between two entries. Each piece is read as the number of its entry, up to the sign of a zero.
Therefore two grids with the same text are equal.
-/

namespace WaveNotebook

open Text

/-! ## Pieces between separators -/

theorem eq_or_mem_of_mem_intercalate {c sep : Char} {pieces : List (List Char)}
    (h : c ∈ [sep].intercalate pieces) : c = sep ∨ ∃ piece ∈ pieces, c ∈ piece := by
  induction pieces with
  | nil => exact nomatch h
  | cons piece pieces ih =>
    cases pieces with
    | nil =>
      rw [List.intercalate_singleton] at h
      exact .inr ⟨piece, List.mem_singleton_self _, h⟩
    | cons piece' pieces =>
      rw [List.intercalate_cons_cons, List.mem_append, List.mem_append, List.mem_singleton] at h
      obtain (h | h) | h := h
      · exact .inr ⟨piece, List.mem_cons_self, h⟩
      · exact .inl h
      · exact (ih h).imp_right fun ⟨p, hp, hc⟩ ↦ ⟨p, List.mem_cons_of_mem _ hp, hc⟩

/-- Two lists are equal if their members have the same images and these tell them apart. -/
theorem beq_of_map_eq {α β : Type} [BEq α] {f : α → β} {xs ys : List α} (h : xs.map f = ys.map f)
    (hf : ∀ x ∈ xs, ∀ y ∈ ys, f x = f y → (x == y) = true) : (xs == ys) = true := by
  induction xs generalizing ys with
  | nil =>
    obtain rfl := List.map_eq_nil_iff.mp h.symm
    rfl
  | cons x xs ih =>
    obtain ⟨y, ys, rfl, hy, hys⟩ := List.map_eq_cons_iff.mp h.symm
    have hhead := hf x List.mem_cons_self y List.mem_cons_self hy.symm
    have htail := ih hys.symm fun x' hx' y' hy' ↦
      hf x' (List.mem_cons_of_mem _ hx') y' (List.mem_cons_of_mem _ hy')
    exact Bool.and_eq_true_iff.mpr ⟨hhead, htail⟩

/-! ## Entries -/

section

variable {x y : Float} (hx : Binary64.isFinite x = true)

include hx

theorem valueText_visible : ∀ c ∈ valueText x, isBlank c = false := by
  obtain ⟨z, hz, -⟩ := exists_denotesNumber_valueText hx
  exact hz.visible

theorem exists_readNumber?_valueText :
    ∃ z, readNumber? (valueText x) = some z ∧ Binary64.Same z x := by
  obtain ⟨z, hz, hsame⟩ := exists_denotesNumber_valueText hx
  exact ⟨z, hz.readNumber?, hsame⟩

theorem beq_of_valueText_eq (h : valueText x = valueText y)
    (hy : Binary64.isFinite y = true) : (x == y) = true := by
  obtain ⟨z, hz, hxz⟩ := exists_readNumber?_valueText hx
  obtain ⟨z', hz', hyz⟩ := exists_readNumber?_valueText hy
  rw [h, hz'] at hz
  obtain rfl := Option.some.inj hz
  exact (hxz.symm.trans hyz).beq hy

end

namespace Grid

/-- The line of a row. -/
def line (row : List Float) : List Char :=
  ['\t'].intercalate (row.map valueText)

def header (g : Grid Float) : List Char :=
  ("Matrix[" ++ sizeText g.rows g.cols ++ "]").toList

theorem text_eq (g : Grid Float) : g.text = ['\n'].intercalate (g.header :: g.toRows.map line) :=
  rfl

theorem newline_notMem_header (g : Grid Float) : '\n' ∉ g.header := by
  have hdigits : ∀ n, '\n' ∉ digitsOf n := fun n h ↦ nomatch (digits_digitsOf n).2 _ h
  simp [header, sizeText, natText, hdigits]

theorem splitOn_line {row : List Float} (hne : row ≠ [])
    (hrow : ∀ x ∈ row, Binary64.isFinite x = true) :
    (line row).splitOn '\t' = row.map valueText := by
  refine List.splitOn_intercalate '\t' ?_ (mt List.map_eq_nil_iff.mp hne)
  rintro piece hpiece htab
  obtain ⟨x, hx, rfl⟩ := List.mem_map.mp hpiece
  cases valueText_visible (hrow x hx) _ htab

theorem newline_notMem_line {row : List Float} (hrow : ∀ x ∈ row, Binary64.isFinite x = true) :
    '\n' ∉ line row := by
  intro h
  obtain h | ⟨piece, hpiece, h⟩ := eq_or_mem_of_mem_intercalate h
  · cases h
  · obtain ⟨x, hx, rfl⟩ := List.mem_map.mp hpiece
    cases valueText_visible (hrow x hx) _ h

theorem getElem?_toRows (g : Grid Float) (i : Fin g.rows) :
    g.toRows[i.val]? = some g.cells[i].toList := by
  simp [toRows]

theorem getElem?_row (g : Grid Float) (i : Fin g.rows) (j : Fin g.cols) :
    g.cells[i].toList[j.val]? = some (g.entry i j) := by
  simp [entry]

section

variable {g : Grid Float} (hg : g.Sound)

include hg

theorem Sound.finite_of_mem_toRows :
    ∀ row ∈ g.toRows, ∀ x ∈ row, Binary64.isFinite x = true := by
  intro row hrow x hx
  obtain ⟨v, hv, rfl⟩ := List.mem_map.mp hrow
  obtain ⟨i, hi, rfl⟩ := Vector.getElem_of_mem (Vector.mem_toList_iff.mp hv)
  obtain ⟨j, hj, rfl⟩ := Vector.getElem_of_mem (Vector.mem_toList_iff.mp hx)
  exact hg.finite ⟨i, hi⟩ ⟨j, hj⟩

theorem Sound.ne_nil_of_mem_toRows : ∀ row ∈ g.toRows, row ≠ [] := by
  rintro row hrow rfl
  exact Nat.ne_of_lt hg.cols_pos (length_of_mem_toRows hrow)

theorem Sound.splitOn_text : g.text.splitOn '\n' = g.header :: g.toRows.map line := by
  rw [text_eq]
  refine List.splitOn_intercalate '\n' ?_ (List.cons_ne_nil _ _)
  rintro piece hpiece
  obtain rfl | hpiece := List.mem_cons.mp hpiece
  · exact newline_notMem_header g
  · obtain ⟨row, hrow, rfl⟩ := List.mem_map.mp hpiece
    exact newline_notMem_line (hg.finite_of_mem_toRows row hrow)

/-- A piece of a line reads as the entry in its place. -/
theorem Sound.exists_piece (i : Fin g.rows) :
    ∃ text, (g.toRows.map line)[i.val]? = some text ∧ (text.splitOn '\t').length = g.cols ∧
      ∀ j : Fin g.cols, ∃ piece x, (text.splitOn '\t')[j.val]? = some piece ∧
        readNumber? piece = some x ∧ (x == g.entry i j) = true := by
  have hrow := List.mem_of_getElem? (getElem?_toRows g i)
  have hsplit := splitOn_line (hg.ne_nil_of_mem_toRows _ hrow) (hg.finite_of_mem_toRows _ hrow)
  refine ⟨line g.cells[i].toList, ?_, ?_, fun j ↦ ?_⟩
  · rw [List.getElem?_map, getElem?_toRows]
    rfl
  · rw [hsplit, List.length_map, length_of_mem_toRows hrow]
  · obtain ⟨x, hx, hsame⟩ := exists_readNumber?_valueText (hg.finite i j)
    refine ⟨valueText (g.entry i j), x, ?_, hx, ?_⟩
    · rw [hsplit, List.getElem?_map, getElem?_row]
      rfl
    · exact hsame.beq (hg.finite i j)

theorem Sound.beq_of_text_eq {h : Grid Float} (hh : h.Sound) (htext : h.text = g.text) :
    beq h g = true := by
  have hlines : h.toRows.map line = g.toRows.map line := by
    have hsplit := congrArg (List.splitOn '\n') htext
    rw [hg.splitOn_text, hh.splitOn_text] at hsplit
    exact (List.cons.inj hsplit).2
  have hpieces : ∀ row ∈ h.toRows, ∀ row' ∈ g.toRows, line row = line row' →
      row.map valueText = row'.map valueText := by
    intro row hrow row' hrow' hline
    rw [← splitOn_line (hh.ne_nil_of_mem_toRows row hrow) (hh.finite_of_mem_toRows row hrow),
      hline,
      splitOn_line (hg.ne_nil_of_mem_toRows row' hrow') (hg.finite_of_mem_toRows row' hrow')]
  have hrows : h.rows = g.rows := by
    have hlength := congrArg List.length hlines
    rwa [List.length_map, List.length_map, length_toRows, length_toRows] at hlength
  have hcols : h.cols = g.cols := by
    obtain ⟨row, hrow⟩ := List.exists_mem_of_ne_nil _ hh.toRows_ne_nil
    obtain ⟨row', hrow', hline⟩ := List.mem_map.mp (hlines ▸ List.mem_map_of_mem hrow)
    have hlength := congrArg List.length (hpieces row hrow row' hrow' hline.symm)
    rwa [List.length_map, List.length_map, length_of_mem_toRows hrow,
      length_of_mem_toRows hrow'] at hlength
  have hentries : (h.toRows == g.toRows) = true := by
    refine beq_of_map_eq hlines fun row hrow row' hrow' hline ↦ ?_
    refine beq_of_map_eq (hpieces row hrow row' hrow' hline) fun x hx y hy hxy ↦ ?_
    exact beq_of_valueText_eq (hh.finite_of_mem_toRows row hrow x hx) hxy
      (hg.finite_of_mem_toRows row' hrow' y hy)
  unfold beq
  rw [hrows, hcols, hentries]
  simp

/-- The text of a matrix consists of a line with its shape and one line for each row, in which
tabs separate one piece for each column. The piece in a place is read as a number equal to the
entry there, so that only equal matrices have the same text. -/
theorem text_readable :
    (∃ lines, g.text.splitOn '\n' = ("Matrix[" ++ sizeText g.rows g.cols ++ "]").toList :: lines ∧
      lines.length = g.rows ∧
      ∀ i : Fin g.rows, ∃ text, lines[i.val]? = some text ∧
        (text.splitOn '\t').length = g.cols ∧
        ∀ j : Fin g.cols, ∃ piece x, (text.splitOn '\t')[j.val]? = some piece ∧
          readNumber? piece = some x ∧ (x == g.entry i j) = true) ∧
      ∀ h : Grid Float, h.Sound → h.text = g.text → beq h g = true := by
  refine ⟨⟨g.toRows.map line, hg.splitOn_text, ?_, hg.exists_piece⟩,
    fun h hh ↦ hg.beq_of_text_eq hh⟩
  rw [List.length_map, length_toRows]

end

/-- Integral, small and large entries, one of them a negative zero. -/
theorem text_readable_mixed :
    let g := ofFn 2 2 fun i j ↦ if i = 0 then if j = 0 then 0.5 else -0.0 else
      if j = 0 then 1e22 else -1.5e-7
    g.text = "Matrix[2x2]\n0.5\t0\n10000000000000000000000\t-1.5e-07".toList ∧
      ∀ h : Grid Float, h.Sound → h.text = g.text → beq h g = true := by
  intro g
  have hg : g.Sound := ⟨by decide, by decide, (allFinite_iff g).mp (by decide +kernel)⟩
  exact ⟨by decide +kernel, (text_readable hg).2⟩

end Grid

end WaveNotebook
