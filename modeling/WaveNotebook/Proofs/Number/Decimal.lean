import WaveNotebook.Number.Decimal
import WaveNotebook.Proofs.Number.Binary64

/-!
# Values of numerals

The value of a numeral is the double nearest to it, and it does not change with a zero that is
written behind the point. The search for the shortest numeral stops at a numeral that reads back,
and the numeral with every digit, which it falls back to, reads back too. So the shortest numeral
of a finite double has this double as its value.
-/

namespace WaveNotebook.Numeral

open Binary64

variable {x : Float} (negative : Bool)

theorem magnitudeCode_zero (e : ℤ) : magnitudeCode ⟨negative, 0, e⟩ = 0 :=
  if_pos rfl

/-- Between the guards of `magnitudeCode` the code is that of the quotient. -/
theorem magnitudeCode_of_ne_zero {m : ℕ} {e : ℤ} (hm : m ≠ 0) (hmost : e ≤ 310)
    (hleast : -330 ≤ e + m.log2) : magnitudeCode ⟨negative, m, e⟩ =
      nearestCode (ratio ⟨negative, m, e⟩).1 (ratio ⟨negative, m, e⟩).2 := by
  unfold magnitudeCode
  dsimp only
  rw [if_neg hm, if_neg (by omega), if_neg (by omega)]

theorem ratio_natCast (m k : ℕ) : ratio ⟨negative, m, k⟩ = (m * Nat.pow 10 k, 1) :=
  if_pos (Int.natCast_nonneg k)

theorem ratio_neg (m k : ℕ) : ratio ⟨negative, m, -(k : ℤ)⟩ = (m, Nat.pow 10 k) := by
  unfold ratio
  dsimp only
  split
  · obtain rfl : k = 0 := by omega
    exact Prod.ext (Nat.mul_one m) rfl
  · rw [Int.neg_neg, Int.toNat_natCast]

theorem magnitudeCode_natCast (m : ℕ) :
    magnitudeCode ⟨negative, m, 0⟩ = nearestCode m 1 := by
  by_cases hm : m = 0
  · rw [hm, magnitudeCode_zero]
    decide +kernel
  · rw [magnitudeCode_of_ne_zero _ hm (by decide) (by omega)]
    exact congrArg (nearestCode · 1) (Nat.mul_one m)

/-- A zero behind the point does not change the value. -/
theorem toFloat_zero_behind (m : ℕ) {k : ℕ} (hk : k ≤ 310) :
    toFloat ⟨negative, m * 10 ^ (k + 1), -1⟩ = toFloat ⟨negative, m, k⟩ := by
  refine congrArg (ofCode negative) ?_
  by_cases hm : m = 0
  · rw [hm, Nat.zero_mul, magnitudeCode_zero, magnitudeCode_zero]
  · have hshifted : m * 10 ^ (k + 1) ≠ 0 := Nat.mul_ne_zero hm (by positivity)
    rw [magnitudeCode_of_ne_zero _ hshifted (by omega) (by omega),
      magnitudeCode_of_ne_zero _ hm (by omega) (by omega), ratio_natCast]
    have htenth : ratio ⟨negative, m * 10 ^ (k + 1), -1⟩ = (m * 10 ^ (k + 1), 10) :=
      ratio_neg negative _ 1
    rw [htenth]
    refine nearestCode_congr (Nat.succ_pos 9) Nat.one_pos ?_
    rw [Nat.mul_one, pow_succ, ← Nat.mul_assoc]
    rfl

/-- A zero behind a numeral whose value is neither zero nor infinite does not change it. -/
theorem magnitudeCode_mul_ten {m : ℕ} {e : ℤ} (hzero : magnitudeCode ⟨negative, m, e⟩ ≠ 0)
    (hfinite : magnitudeCode ⟨negative, m, e⟩ ≠ infinityCode) :
    magnitudeCode ⟨negative, m * 10, e - 1⟩ = magnitudeCode ⟨negative, m, e⟩ := by
  have hm : m ≠ 0 := by
    rintro rfl
    exact hzero (magnitudeCode_zero negative e)
  have hmost : e ≤ 310 := by
    by_contra h
    refine hfinite ?_
    unfold magnitudeCode
    dsimp only
    rw [if_neg hm, if_pos (by omega)]
  have hleast : -330 ≤ e + m.log2 := by
    by_contra h
    refine hzero ?_
    unfold magnitudeCode
    dsimp only
    rw [if_neg hm, if_neg (by omega), if_pos (by omega)]
  have hten : m * 10 ≠ 0 := Nat.mul_ne_zero hm (by decide)
  have hlog : m.log2 + 1 ≤ (m * 10).log2 := by
    rw [Nat.le_log2 hten, pow_succ]
    have := Nat.log2_self_le hm
    omega
  rw [magnitudeCode_of_ne_zero _ hten (by omega) (by omega),
    magnitudeCode_of_ne_zero _ hm hmost hleast]
  obtain ⟨k, rfl⟩ | ⟨k, rfl⟩ : (∃ k : ℕ, e = k + 1) ∨ ∃ k : ℕ, e = -(k : ℤ) := by
    obtain h | h := lt_or_ge 0 e
    · exact .inl ⟨(e - 1).toNat, by omega⟩
    · exact .inr ⟨(-e).toNat, by omega⟩
  · have hnat : ((k : ℤ) + 1 - 1) = k := by omega
    have hsucc : ratio ⟨negative, m, (k : ℤ) + 1⟩ = (m * Nat.pow 10 (k + 1), 1) :=
      ratio_natCast negative m (k + 1)
    rw [hnat, ratio_natCast, hsucc]
    refine congrArg (nearestCode · 1) ?_
    change m * 10 * 10 ^ k = m * 10 ^ (k + 1)
    ring
  · have hneg : (-(k : ℤ) - 1) = -((k + 1 : ℕ) : ℤ) := by omega
    rw [hneg, ratio_neg, ratio_neg]
    refine nearestCode_congr (Nat.pow_pos (by decide)) (Nat.pow_pos (by decide)) ?_
    change m * 10 * 10 ^ k = m * 10 ^ (k + 1)
    ring

/-- A numeral reads back as a double. -/
def ReadsBack (n : Numeral) (x : Float) : Prop :=
  n.negative = isNegative x ∧ n.magnitudeCode = code x

theorem ReadsBack.toFloat_eq {n : Numeral} (h : n.ReadsBack x) : n.toFloat = x := by
  rw [toFloat, h.1, h.2, ofCode_code]

/-! ## Every digit -/

/-- A whole number of units has a numeral with as many decimal digits behind the point as a unit
has binary ones. -/
theorem readsBack_scaled (hx : Binary64.isFinite x = true) (hzero : units x ≠ 0) {k : ℕ}
    (hk : unitsPerOne = Nat.pow 2 k) :
    ReadsBack ⟨isNegative x, units x * Nat.pow 5 k, -(k : ℤ)⟩ x := by
  have hsignificand : units x * Nat.pow 5 k ≠ 0 :=
    Nat.mul_ne_zero hzero (Nat.pow_pos (by decide)).ne'
  have hlog : k ≤ (units x * Nat.pow 5 k).log2 := by
    rw [Nat.le_log2 hsignificand]
    calc
      2 ^ k ≤ Nat.pow 5 k := Nat.pow_le_pow_left (by decide) k
      _ ≤ units x * Nat.pow 5 k := Nat.le_mul_of_pos_left _ (Nat.pos_of_ne_zero hzero)
  refine ⟨rfl, ?_⟩
  rw [magnitudeCode_of_ne_zero _ hsignificand (by omega) (by omega), ratio_neg]
  refine nearestCode_eq (Nat.pow_pos (by decide)) (code_lt hx) ?_
  rw [hk, Nat.mul_assoc]
  exact congrArg _ (Nat.mul_pow 5 2 k).symm

theorem readsBack_exact (hx : Binary64.isFinite x = true) (hzero : units x ≠ 0) :
    (exact x).ReadsBack x := by
  have hexact : exact x = ⟨isNegative x, units x * Nat.pow 5 1074, -((1074 : ℕ) : ℤ)⟩ := by
    simp only [exact]
    rfl
  have hunits : unitsPerOne = Nat.pow 2 1074 := by
    unfold unitsPerOne
    rfl
  have hscaled := readsBack_scaled hx hzero hunits
  rwa [← hexact] at hscaled

/-! ## The search -/

theorem negative_of_mem_neighbours {g : ℤ} {n : Numeral} (h : n ∈ neighbours x g) :
    n.negative = isNegative x := by
  unfold neighbours at h
  dsimp only at h
  split at h
  · simp only [List.mem_cons, List.not_mem_nil, or_false] at h
    obtain rfl | rfl := h <;> rfl
  · simp only [List.mem_cons, List.not_mem_nil, or_false] at h
    obtain rfl | rfl := h <;> rfl

-- the search is compared by its shape, not by what the neighbours are
attribute [local irreducible] neighbours in
theorem shortestFrom_succ (x : Float) (g : ℤ) (steps : ℕ) :
    shortestFrom x g (steps + 1) =
      match (neighbours x g).find? fun n ↦ n.magnitudeCode == code x with
      | some n => some n
      | none => shortestFrom x (g - 1) steps :=
  rfl

/-- What the search finds reads back, on whatever grid it stops. -/
theorem readsBack_of_shortestFrom {n : Numeral} {steps : ℕ} :
    ∀ {g : ℤ}, shortestFrom x g steps = some n → n.ReadsBack x := by
  induction steps with
  | zero => exact nofun
  | succ steps ih =>
    intro g h
    rw [shortestFrom_succ] at h
    split at h
    · rename_i m hfind
      cases h
      have hread : (n.magnitudeCode == code x) = true := by
        simpa only using List.find?_some hfind
      exact ⟨negative_of_mem_neighbours (List.mem_of_find?_eq_some hfind), beq_iff_eq.mp hread⟩
    · exact ih h

theorem readsBack_shortest (hx : Binary64.isFinite x = true) : (shortest x).ReadsBack x := by
  unfold shortest
  split
  · rename_i hzero
    have hcode : code x = 0 := unitsOfCode_eq_zero_iff.mp hzero
    refine ⟨rfl, ?_⟩
    rw [hcode]
    rfl
  · rename_i hzero
    cases hsearch : shortestFrom x (startExponent x) 25 with
    | none =>
      rw [Option.getD_none]
      exact readsBack_exact hx hzero
    | some n => exact readsBack_of_shortestFrom hsearch

end WaveNotebook.Numeral
