import WaveNotebook.Proofs.Text.Trim
import WaveNotebook.Proofs.Value.Sound

/-!
# Printed values

The text of a number consists of digits, signs, a point and letters, none of which is blank. The
texts of the other kinds of values end in a bracket, a brace or a number. So what is printed for
a value is never empty and never ends in a blank, whatever the numbers in it are; of a matrix
this needs that its rows are not empty.
-/

namespace WaveNotebook

open Text

/-! ## Numbers -/

theorem Text.isBlank_digitChar (d : Nat) : isBlank (digitChar d) = false := by
  have key : ∀ k : Fin 10, isBlank (digitChar k) = false := by decide
  simpa [digitChar] using key ⟨d % 10, Nat.mod_lt d (by decide)⟩

theorem Text.digitsOf_ne_nil (n : Nat) : digitsOf n ≠ [] := by
  unfold digitsOf
  split
  · exact List.cons_ne_nil _ _
  · exact List.append_ne_nil_of_right_ne_nil _ (List.cons_ne_nil _ _)

theorem Text.digitsOf_visible (n : Nat) : ∀ c ∈ digitsOf n, isBlank c = false := by
  induction n using digitsOf.induct with
  | case1 n hn =>
    rw [digitsOf, if_pos hn]
    simp [isBlank_digitChar]
  | case2 n hn ih =>
    rw [digitsOf, if_neg hn]
    intro c hc
    obtain hc | hc := List.mem_append.mp hc
    · exact ih c hc
    · rw [List.mem_singleton.mp hc]
      exact isBlank_digitChar n

theorem Text.endsVisible_digitsOf (n : Nat) : EndsVisible (digitsOf n) :=
  .of_forall (digitsOf_ne_nil n) (digitsOf_visible n)

theorem endsVisible_integerText (n : Int) : EndsVisible (integerText n) :=
  (endsVisible_digitsOf _).append_left _

namespace NumberStyle

theorem endsVisible_exponentText (style : NumberStyle) (e : Int) :
    EndsVisible (style.exponentText e) := by
  unfold exponentText
  exact (endsVisible_digitsOf _).append_left _

theorem endsVisible_positional {ds : List Char} (hne : ds ≠ [])
    (hds : ∀ c ∈ ds, isBlank c = false) (k : Int) : EndsVisible (positional ds k) := by
  unfold positional
  split
  · exact (EndsVisible.of_forall hne hds).append_left _
  · split
    · exact .append_left _ ⟨['.'], '0', rfl, by decide⟩
    · rename_i hlength
      -- some digits are left behind the point
      refine .append_left _ (.append_left ['.'] (.of_forall ?_ fun c hc ↦ ?_))
      · intro hnil
        have := List.drop_eq_nil_iff.mp hnil
        omega
      · exact hds c (List.mem_of_mem_drop hc)

theorem endsVisible_text (style : NumberStyle) (n : Numeral) : EndsVisible (style.text n) := by
  unfold text
  refine .append_left _ ?_
  split
  · exact ⟨['0', '.'], '0', rfl, by decide⟩
  · split
    · exact endsVisible_positional (digitsOf_ne_nil _) (digitsOf_visible _) _
    · exact (style.endsVisible_exponentText _).append_left _

end NumberStyle

theorem endsVisible_numberText (x : Float) : EndsVisible (numberText x) := by
  unfold numberText
  split
  · exact numberStyle.endsVisible_text _
  · split
    · exact ⟨['n', 'a'], 'n', rfl, by decide⟩
    · exact .append_left _ ⟨['i', 'n'], 'f', rfl, by decide⟩

theorem endsVisible_valueText (x : Float) : EndsVisible (valueText x) := by
  unfold valueText
  split
  · exact endsVisible_integerText _
  · exact endsVisible_numberText _

/-! ## Values -/

theorem Signal.endsVisible_text (s : Signal Float) (count : Int) : EndsVisible (s.text count) :=
  .append_left _ ⟨['.', '.', '.'], ']', rfl, by decide⟩

theorem Grid.Sound.endsVisible_text {g : Grid Float} (hg : g.Sound) : EndsVisible g.text := by
  unfold Grid.text
  refine endsVisible_intercalate _ (List.cons_ne_nil _ _) fun piece hpiece ↦ ?_
  obtain rfl | hpiece := List.mem_cons.mp hpiece
  · rw [String.toList_append]
    exact .append_left _ ⟨[], ']', rfl, by decide⟩
  · obtain ⟨row, hrow, rfl⟩ := List.mem_map.mp hpiece
    refine endsVisible_intercalate _ (fun hnil ↦ ?_) fun entry hentry ↦ ?_
    · obtain ⟨cells, -, rfl⟩ := List.mem_map.mp hrow
      have hlength := congrArg List.length (List.map_eq_nil_iff.mp hnil)
      rw [Vector.length_toList] at hlength
      exact Nat.ne_of_gt hg.cols_pos hlength
    · obtain ⟨x, -, rfl⟩ := List.mem_map.mp hentry
      exact endsVisible_valueText x

/-- What a notebook prints for a value, in a store with sound matrices. -/
theorem Value.endsVisible_text {st : Store Float} (hst : st.Sound) (preview : Int) (v : Value) :
    EndsVisible (v.text st preview) := by
  cases v with
  | number x => exact endsVisible_valueText x
  | signal s => exact s.endsVisible_text preview
  | matrix h => exact (hst.grid h).endsVisible_text
  | function b =>
    change EndsVisible "[Function]".toList
    exact ⟨"[Function".toList, ']', by simp, by decide⟩
  | modes signals =>
    change EndsVisible ("Modes[" ++ natText signals.length ++ " modes]").toList
    rw [String.toList_append]
    exact .append_left _ ⟨" modes".toList, ']', by simp, by decide⟩
  | metrics values => exact .append_left _ ⟨[], '}', rfl, by decide⟩

end WaveNotebook
