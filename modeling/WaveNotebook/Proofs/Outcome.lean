import WaveNotebook.Datum

/-!
# How computations end

`Ends bad post r` says of a result that a value has the property `post` and a fault has the
property `bad`. The rules follow the combinators that computations are made of, so that the
property of a composed computation is put together from those of its parts. `Yields` is the
form for computations of statements: their faults are expected ones.
-/

namespace WaveNotebook

section

variable {ε ε' α β : Type} {bad : ε → Prop} {post : α → Prop}

inductive Ends (bad : ε → Prop) (post : α → Prop) : Except ε α → Prop
  | ok {a : α} (h : post a) : Ends bad post (.ok a)
  | error {e : ε} (h : bad e) : Ends bad post (.error e)

namespace Ends

theorem value {a : α} (h : Ends bad post (.ok a)) : post a := by
  cases h with
  | ok h => exact h

theorem fault {e : ε} (h : Ends bad post (.error e)) : bad e := by
  cases h with
  | error h => exact h

theorem mono {post' : α → Prop} {r : Except ε α} (h : Ends bad post r)
    (hpost : ∀ a, post a → post' a) : Ends bad post' r := by
  cases h with
  | ok h => exact .ok (hpost _ h)
  | error h => exact .error h

theorem weaken {bad' : ε → Prop} {r : Except ε α} (h : Ends bad post r)
    (hbad : ∀ e, bad e → bad' e) : Ends bad' post r := by
  cases h with
  | ok h => exact .ok h
  | error h => exact .error (hbad _ h)

/-- What is known of the value of a computation, together with where it comes from. -/
theorem self {r : Except ε α} (h : Ends bad post r) : Ends bad (fun a ↦ post a ∧ r = .ok a) r := by
  cases h with
  | ok h => exact .ok ⟨h, rfl⟩
  | error h => exact .error h

theorem bind {post' : β → Prop} {r : Except ε α} {f : α → Except ε β} (h : Ends bad post r)
    (hf : ∀ a, post a → Ends bad post' (f a)) : Ends bad post' (r >>= f) := by
  cases h with
  | ok h => exact hf _ h
  | error h => exact .error h

theorem map {post' : β → Prop} {r : Except ε α} {f : α → β} (h : Ends bad post r)
    (hf : ∀ a, post a → post' (f a)) : Ends bad post' (f <$> r) := by
  cases h with
  | ok h => exact .ok (hf _ h)
  | error h => exact .error h

theorem mapError {bad' : ε' → Prop} {r : Except ε α} {f : ε → ε'} (h : Ends bad post r)
    (hf : ∀ e, bad e → bad' (f e)) : Ends bad' post (r.mapError f) := by
  cases h with
  | ok h => exact .ok h
  | error h => exact .error (hf _ h)

theorem elim {o : Option α} {e : ε} (he : bad e) (ho : ∀ a, o = some a → post a) :
    Ends bad post (o.elim (.error e) .ok) := by
  cases o with
  | none => exact .error he
  | some a => exact .ok (ho a rfl)

/-- The values of a list are computed one by one. -/
theorem mapM {R : α → β → Prop} {f : α → Except ε β} {xs : List α}
    (h : ∀ a ∈ xs, Ends bad (R a) (f a)) :
    Ends bad (fun ys ↦ ys.length = xs.length ∧ ∀ b ∈ ys, ∃ a ∈ xs, R a b) (xs.mapM f) := by
  induction xs with
  | nil => exact .ok ⟨rfl, fun b hb ↦ nomatch hb⟩
  | cons a xs ih =>
    rw [List.mapM_cons]
    refine (h a List.mem_cons_self).bind fun b hb ↦ ?_
    refine (ih fun a ha ↦ h a (List.mem_cons_of_mem _ ha)).bind fun bs hbs ↦ ?_
    refine .ok ⟨by rw [List.length_cons, List.length_cons, hbs.1], fun b' hb' ↦ ?_⟩
    obtain rfl | hb' := List.mem_cons.mp hb'
    · exact ⟨a, List.mem_cons_self, hb⟩
    · obtain ⟨a', ha', hR⟩ := hbs.2 b' hb'
      exact ⟨a', List.mem_cons_of_mem _ ha', hR⟩

theorem foldlM {f : α → β → Except ε α} {ys : List β} {a : α} (ha : post a)
    (h : ∀ a, ∀ y ∈ ys, post a → Ends bad post (f a y)) : Ends bad post (ys.foldlM f a) := by
  induction ys generalizing a with
  | nil => exact .ok ha
  | cons y ys ih =>
    rw [List.foldlM_cons]
    refine (h a y List.mem_cons_self ha).bind fun a' ha' ↦ ?_
    exact ih ha' fun a y hy ↦ h a y (List.mem_cons_of_mem _ hy)

end Ends

/-- A composed computation has a value if both of its parts have one. -/
theorem bind_eq_ok_iff {r : Except ε α} {f : α → Except ε β} {b : β} :
    r >>= f = .ok b ↔ ∃ a, r = .ok a ∧ f a = .ok b := by
  cases r with
  | ok a =>
    change f a = .ok b ↔ _
    simp
  | error e =>
    change Except.error e = Except.ok b ↔ _
    simp

end

/-- Two computations end alike: the one has a value and the other one the image of it, or they
have faults that are related. -/
inductive EndsAlike {ε ε' α β : Type} (related : ε → ε' → Prop) (image : α → β) :
    Except ε α → Except ε' β → Prop
  | ok (a : α) : EndsAlike related image (.ok a) (.ok (image a))
  | error {e : ε} {e' : ε'} (h : related e e') : EndsAlike related image (.error e) (.error e')

namespace EndsAlike

variable {ε ε' α β γ δ : Type} {related : ε → ε' → Prop} {image : α → β} {image' : γ → δ}
  {r : Except ε α} {r' : Except ε' β}

theorem bind {f : α → Except ε γ} {f' : β → Except ε' δ} (h : EndsAlike related image r r')
    (hf : ∀ a, r = .ok a → EndsAlike related image' (f a) (f' (image a))) :
    EndsAlike related image' (r >>= f) (r' >>= f') := by
  cases h with
  | ok a => exact hf a rfl
  | error h => exact .error h

theorem map {f : α → γ} {f' : β → δ} (h : EndsAlike related image r r')
    (hf : ∀ a, r = .ok a → f' (image a) = image' (f a)) :
    EndsAlike related image' (f <$> r) (f' <$> r') := by
  cases h with
  | ok a =>
    change EndsAlike related image' (.ok (f a)) (.ok (f' (image a)))
    rw [hf a rfl]
    exact .ok (f a)
  | error h => exact .error h

theorem mono {related' : ε → ε' → Prop} (h : EndsAlike related image r r')
    (hrelated : ∀ e e', related e e' → related' e e') : EndsAlike related' image r r' := by
  cases h with
  | ok a => exact .ok a
  | error h => exact .error (hrelated _ _ h)

/-- With the same faults, the one result is the image of the other. -/
theorem eq_map {r' : Except ε β} (h : EndsAlike Eq image r r') : r' = image <$> r := by
  cases h with
  | ok a => rfl
  | error h =>
    subst h
    rfl

end EndsAlike

/-- A fault that a statement may have. -/
def NumericFault.Expected (f : NumericFault) : Prop :=
  f.category.isStatementCause = true

@[inherit_doc NumericFault.Expected]
def Fault.Expected (f : Fault) : Prop :=
  f.category.isStatementCause = true

/-- A value with the given property, or a fault that a statement may have. -/
abbrev Yields {α : Type} (post : α → Prop) (r : Except Fault α) : Prop :=
  Ends Fault.Expected post r

theorem Fault.expected_numeric {f : NumericFault} (h : f.Expected) :
    (Fault.numeric f).Expected := h

/-- A conversion of plain data as a part of a statement. -/
theorem Ends.numeric {α : Type} {post : α → Prop} {r : Except NumericFault α}
    (h : Ends NumericFault.Expected post r) : Yields post (r.mapError Fault.numeric) :=
  h.mapError fun _ ↦ Fault.expected_numeric

end WaveNotebook
