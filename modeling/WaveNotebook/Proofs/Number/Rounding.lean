import WaveNotebook.Proofs.Number.Unpacked

/-!
# Rounding of doubles

The sum, the product and the quotient of doubles are the doubles nearest to the exact results. Their
arithmetic works on significands with two residual bits, which are all that rounding needs to know
of a quotient: shifting keeps what they stand for, and rounding takes them to the nearest whole
number. So a rounded significand with its exponent has the code of the nearest double.
-/

namespace WaveNotebook.Binary64

open Float.Model UnpackedFloat

/-! ## Residual bits -/

/-- A significand and its round bit are the halves in a quotient, and the sticky bit says that there
is more. -/
structure Stands (em : ExtendedMantissa) (num den : ℕ) : Prop where
  halves : 2 * em.mantissa + em.roundBit.toNat = 2 * num / den
  sticky : em.stickyBit = decide (2 * num % den ≠ 0)

section

variable {em : ExtendedMantissa} {num den : ℕ}

/-- The significand is the quotient, and what it leaves is in the two bits. -/
theorem Stands.divMod (h : Stands em num den) :
    em.mantissa = num / den ∧ 2 * (num % den) = den * em.roundBit.toNat + 2 * num % den := by
  have hhalf : 2 * num / den / 2 = num / den := by
    rw [Nat.div_div_eq_div_mul, Nat.mul_comm den 2, Nat.mul_div_mul_left _ _ (by decide)]
  have hbit : em.roundBit.toNat ≤ 1 := Bool.toNat_le _
  have hmantissa : em.mantissa = num / den := by
    rw [← hhalf, ← h.halves]
    omega
  refine ⟨hmantissa, ?_⟩
  have hwhole := Nat.div_add_mod num den
  have htwice := Nat.div_add_mod (2 * num) den
  rw [← h.halves, Nat.mul_add, hmantissa, Nat.mul_left_comm] at htwice
  omega

theorem Stands.shiftRightOne (h : Stands em num den) (hden : 0 < den) :
    Stands em.shiftRightOne num (2 * den) := by
  obtain ⟨hmantissa, hrest⟩ := h.divMod
  refine ⟨?_, ?_⟩
  · have hbit : (em.mantissa % 2 != 0).toNat = em.mantissa % 2 := by
      obtain hmod | hmod := Nat.mod_two_eq_zero_or_one em.mantissa <;> rw [hmod] <;> rfl
    calc
      _ = 2 * (em.mantissa / 2) + em.mantissa % 2 := congrArg (2 * (em.mantissa / 2) + ·) hbit
      _ = num / den := by rw [Nat.div_add_mod, hmantissa]
      _ = 2 * num / (2 * den) := (Nat.mul_div_mul_left _ _ (by decide)).symm
  · rw [Nat.mul_mod_mul_left, hrest]
    unfold ExtendedMantissa.shiftRightOne
    rw [h.sticky]
    cases em.roundBit with
    | false => simp
    | true => simp [hden.ne']

theorem Stands.shiftRight (h : Stands em num den) (hden : 0 < den) (k : ℕ) :
    Stands (em >>> k) num (den * 2 ^ k) := by
  change Stands (k.repeat ExtendedMantissa.shiftRightOne em) num (den * 2 ^ k)
  induction k with
  | zero =>
    rw [pow_zero, Nat.mul_one]
    exact h
  | succ k ih =>
    rw [Nat.repeat, pow_succ', Nat.mul_left_comm]
    exact ih.shiftRightOne (by positivity)

/-- Rounding takes the nearest whole number. -/
theorem Stands.roundedMantissa (h : Stands em num den) (hden : 0 < den) :
    em.roundedMantissa = divNearest num den := by
  obtain ⟨hmantissa, hrest⟩ := h.divMod
  have hlt := Nat.mod_lt (2 * num) hden
  have hsticky := h.sticky
  unfold divNearest ExtendedMantissa.roundedMantissa
  dsimp only
  rw [hrest, ← hmantissa]
  obtain ⟨m, roundBit, stickyBit⟩ := em
  cases roundBit <;> cases stickyBit <;>
    simp only [Bool.toNat_false, Bool.toNat_true, Nat.mul_zero, Nat.mul_one, Nat.zero_add,
      true_eq_decide_iff, false_eq_decide_iff, not_not] at hsticky ⊢ <;>
    simp only [ExtendedMantissa.accuracy, Accuracy.roundToNearestEven]
  · rw [if_pos (by omega)]
  · rw [if_pos (by omega)]
  · rw [if_neg (by omega), if_neg (by omega)]
  · rw [if_neg (by omega), if_pos (by omega)]

theorem divNearest_bounds (num den : ℕ) :
    num / den ≤ divNearest num den ∧ divNearest num den ≤ num / den + 1 := by
  have hmod : num / den % 2 ≤ 1 := by omega
  unfold divNearest
  dsimp only
  split
  · exact ⟨le_rfl, Nat.le_succ _⟩
  · split
    · exact ⟨Nat.le_succ _, le_rfl⟩
    · omega

end

/-! ## Rounding to a significand -/

/-- The exponent that a significand is shifted to. -/
def target (m : ℕ) (e : ℤ) : ℤ :=
  Format.binary64.targetExponent (totalExponent m e)

theorem target_eq (m : ℕ) (e : ℤ) : target m e = max (m.log2 + e - 52) (-1074) := by
  change max ((m.log2 : ℤ) + 1 + e - 53) (-1074) = _
  omega

/-- A shifted significand has at most 53 bits, and so many unless the exponent is the least one. -/
theorem shifted_bounds {m : ℕ} {e : ℤ} (he : e ≤ target m e) :
    m / 2 ^ (target m e - e).toNat < 2 ^ 53 ∧
      (2 ^ 52 ≤ m / 2 ^ (target m e - e).toNat ∨ target m e = -1074) := by
  have htarget := target_eq m e
  refine ⟨?_, ?_⟩
  · rw [Nat.div_lt_iff_lt_mul (by positivity), ← pow_add]
    refine Nat.lt_log2_self.trans_le (Nat.pow_le_pow_right (by decide) ?_)
    omega
  · by_cases hleast : target m e = -1074
    · exact .inr hleast
    · have hm : m ≠ 0 := by
        rintro rfl
        simp at htarget
        omega
      refine .inl ((Nat.le_div_iff_mul_le (by positivity)).mpr ?_)
      rw [← pow_add]
      refine (Nat.pow_le_pow_right (by decide) ?_).trans (Nat.log2_self_le hm)
      omega

/-- A rounded significand, which may have carried into a further bit, is packed into its code. -/
theorem packed_carried {s : Sign} {n : ℕ} {t : ℤ} (hn : n ≤ 2 ^ 53) (hleast : -1074 ≤ t)
    (hnormal : 2 ^ 52 ≤ n ∨ t = -1074) :
    packed (match shiftToTargetExponent .binary64 n t .exact with
      | (final, e) =>
        if h : final.mantissa = 0 then .zero s
        else .finite s final.mantissa e (Nat.pos_of_ne_zero h)) =
      ofCode (isMinus s) (min ((t + 1074).toNat * fractionCount + n) infinityCode) := by
  have htarget := target_eq n t
  have hshift : shiftToTargetExponent .binary64 n t .exact =
      (ExtendedMantissa.ofMantissaAndAccuracy n .exact >>> (target n t - t).toNat,
        t + (target n t - t).toNat) := rfl
  rw [hshift]
  dsimp only
  obtain hlt | rfl := Nat.lt_or_eq_of_le hn
  · have hlog : n = 0 ∨ n.log2 < 53 := by
      obtain rfl | hpos := Nat.eq_zero_or_pos n
      · exact .inl rfl
      · exact .inr ((Nat.log2_lt hpos.ne').mpr hlt)
    have hstay : (target n t - t).toNat = 0 := by
      obtain rfl | hlog := hlog
      · simp at htarget
        omega
      · omega
    rw [hstay]
    change packed (if h : n = 0 then .zero s else .finite s n (t + 0) (Nat.pos_of_ne_zero h)) = _
    rw [add_zero]
    split
    · rename_i hzero
      have ht : t = -1074 := hnormal.resolve_left (by omega)
      rw [packed_zero, hzero, ht]
      rfl
    · exact packed_finite ⟨hlt, hleast, hnormal⟩
  · have hlog : (2 ^ 53).log2 = 53 := Nat.log2_two_pow
    have hcarry : (target (2 ^ 53) t - t).toNat = 1 := by omega
    rw [hcarry]
    change packed (.finite s (2 ^ 52) (t + 1) (by decide)) = _
    rw [packed_finite ⟨by decide, by omega, .inl le_rfl⟩]
    have hfraction : fractionCount = 2 ^ 52 := rfl
    refine congrArg (fun c ↦ ofCode (isMinus s) (min c infinityCode)) ?_
    rw [hfraction]
    omega

theorem packed_roundWithAccuracy {s : Sign} {m : ℕ} {e : ℤ} {accuracy : Accuracy} {num den : ℕ}
    (hden : 0 < den) (h : Stands (.ofMantissaAndAccuracy m accuracy) num den)
    (he : e ≤ target m e) :
    packed (roundWithAccuracy .binary64 s m e accuracy) =
      ofCode (isMinus s) (min ((target m e + 1074).toNat * fractionCount +
        divNearest num (den * 2 ^ (target m e - e).toNat)) infinityCode) := by
  have hshifted := h.shiftRight hden (target m e - e).toNat
  have hrounded := hshifted.roundedMantissa (by positivity)
  have hquotient : num / (den * 2 ^ (target m e - e).toNat) = m / 2 ^ (target m e - e).toNat := by
    have hmantissa : (ExtendedMantissa.ofMantissaAndAccuracy m accuracy).mantissa = m := by
      unfold ExtendedMantissa.ofMantissaAndAccuracy
      split <;> rfl
    rw [← Nat.div_div_eq_div_mul, ← h.divMod.1, hmantissa]
  have hbounds := divNearest_bounds num (den * 2 ^ (target m e - e).toNat)
  rw [hquotient] at hbounds
  obtain ⟨hlt, hnormal⟩ := shifted_bounds he
  have htarget := target_eq m e
  have hexponent : e + (target m e - e).toNat = target m e := by omega
  rw [← packed_carried (by omega) (by omega) (hnormal.imp_left hbounds.1.trans'), ← hrounded]
  unfold roundWithAccuracy
  have hshift : shiftToTargetExponent .binary64 m e accuracy =
      (ExtendedMantissa.ofMantissaAndAccuracy m accuracy >>> (target m e - e).toNat,
        e + (target m e - e).toNat) := rfl
  rw [hshift, hexponent]

/-! ## Rounding to the nearest double -/

theorem nearestCode_units (a : ℕ) (b : ℕ) : nearestCode a (b * unitsPerOne) =
    min (((a / b).log2 - 52) * fractionCount +
      divNearest a (b * 2 ^ ((a / b).log2 - 52))) infinityCode := by
  unfold nearestCode
  dsimp only
  rw [Nat.mul_div_mul_right _ _ unitsPerOne_pos, Nat.mul_right_comm b unitsPerOne,
    divNearest_mul_mul _ _ unitsPerOne_pos]
  rfl

theorem log2_div_two_pow (m j : ℕ) : (m / 2 ^ j).log2 = m.log2 - j := by
  rw [Nat.log2_eq_log_two, Nat.log2_eq_log_two, Nat.log_div_base_pow]

/-- The length of a quotient that is shifted to the left. -/
theorem log2_mul_two_pow_div {num den : ℕ} (hden : 0 < den) (hm : num / den ≠ 0) (i : ℕ) :
    (num * 2 ^ i / den).log2 = (num / den).log2 + i := by
  have hpow : 0 < 2 ^ i := Nat.two_pow_pos i
  have hle : num / den * 2 ^ i ≤ num * 2 ^ i / den := by
    rw [Nat.le_div_iff_mul_le hden, Nat.mul_right_comm]
    exact Nat.mul_le_mul_right _ (Nat.div_mul_le_self num den)
  have hlt : num * 2 ^ i / den < (num / den + 1) * 2 ^ i := by
    rw [Nat.div_lt_iff_lt_mul hden, Nat.mul_right_comm]
    exact Nat.mul_lt_mul_of_pos_right (Nat.lt_mul_of_div_lt (Nat.lt_succ_self _) hden) hpow
  have hlower := Nat.log2_self_le hm
  have hupper : num / den + 1 ≤ 2 ^ ((num / den).log2 + 1) := Nat.lt_log2_self
  refine (Nat.log2_eq_iff (Nat.pos_iff_ne_zero.mp (hle.trans_lt' (by positivity)))).mpr ⟨?_, ?_⟩
  · rw [pow_add]
    exact (Nat.mul_le_mul_right _ hlower).trans hle
  · rw [Nat.add_right_comm, pow_add]
    exact hlt.trans_le (Nat.mul_le_mul_right _ hupper)

theorem packed_eq_ofRatio {s : Sign} {m : ℕ} {e : ℤ} {accuracy : Accuracy} {num den : ℕ}
    (hden : 0 < den) (h : Stands (.ofMantissaAndAccuracy m accuracy) num den)
    (he : e ≤ target m e) :
    packed (roundWithAccuracy .binary64 s m e accuracy) =
      ofRatio (isMinus s) (num * 2 ^ (e + 1074).toNat)
        (den * 2 ^ (-(e + 1074)).toNat * unitsPerOne) := by
  have htarget := target_eq m e
  have hm : m = num / den := by
    rw [← h.divMod.1]
    unfold ExtendedMantissa.ofMantissaAndAccuracy
    split <;> rfl
  have hplace : (num * 2 ^ (e + 1074).toNat / (den * 2 ^ (-(e + 1074)).toNat)).log2 - 52 =
      (target m e + 1074).toNat := by
    obtain hneg | hnonneg := lt_or_ge e (-1074)
    · have hzero : (e + 1074).toNat = 0 := by omega
      rw [hzero, pow_zero, Nat.mul_one, ← Nat.div_div_eq_div_mul, ← hm, log2_div_two_pow]
      omega
    · have hzero : (-(e + 1074)).toNat = 0 := by omega
      rw [hzero, pow_zero, Nat.mul_one]
      obtain rfl | hpos := Nat.eq_zero_or_pos m
      · simp at htarget
        have hexponent : (e + 1074).toNat = 0 := by omega
        rw [hexponent, pow_zero, Nat.mul_one, ← hm]
        simp
        omega
      · rw [log2_mul_two_pow_div hden (hm ▸ hpos.ne'), ← hm]
        omega
  have hshift : (target m e - e).toNat + (e + 1074).toNat =
      (-(e + 1074)).toNat + (target m e + 1074).toNat := by omega
  rw [packed_roundWithAccuracy hden h he, ofRatio, nearestCode_units, hplace, Nat.mul_assoc,
    ← pow_add, ← hshift, pow_add, ← Nat.mul_assoc, divNearest_mul_mul _ _ (Nat.two_pow_pos _)]

theorem stands_exact (n : ℕ) : Stands (.ofMantissaAndAccuracy n .exact) n 1 := by
  refine ⟨?_, ?_⟩
  · rw [Nat.div_one]
    rfl
  · rw [Nat.mod_one]
    rfl

theorem stands_fraction (num : ℕ) {den : ℕ} (hden : 0 < den) :
    Stands (.ofMantissaAndAccuracy (num / den) (accuracyOfFraction (num % den) den)) num den := by
  have hlt := Nat.mod_lt num hden
  have hsplit : 2 * num = den * (2 * (num / den)) + 2 * (num % den) := by
    conv_lhs => rw [← Nat.div_add_mod num den]
    ring
  have hdiv : 2 * num / den = 2 * (num / den) + 2 * (num % den) / den := by
    rw [hsplit, Nat.mul_add_div hden]
  have hmod : 2 * num % den = 2 * (num % den) % den := by
    rw [hsplit, Nat.mul_add_mod]
  rw [← Nat.mul_one (2 * (num / den))] at hdiv
  unfold accuracyOfFraction
  split
  · rename_i hzero
    refine ⟨?_, ?_⟩
    · rw [hdiv, hzero, Nat.mul_one, Nat.mul_zero, Nat.zero_div]
      rfl
    · rw [hmod, hzero, Nat.mul_zero, Nat.zero_mod]
      rfl
  · rename_i hpos
    obtain hhalf | hhalf | hhalf := Nat.lt_trichotomy (2 * (num % den)) den
    · rw [Nat.compare_eq_lt.mpr hhalf]
      refine ⟨?_, ?_⟩
      · rw [hdiv, Nat.div_eq_of_lt hhalf, Nat.mul_one]
        rfl
      · rw [hmod, Nat.mod_eq_of_lt hhalf]
        exact (decide_eq_true (by omega)).symm
    · rw [Nat.compare_eq_eq.mpr hhalf]
      refine ⟨?_, ?_⟩
      · rw [hdiv, hhalf, Nat.div_self hden, Nat.mul_one]
        rfl
      · rw [hmod, hhalf, Nat.mod_self]
        rfl
    · rw [Nat.compare_eq_gt.mpr hhalf]
      have hquotient : 2 * (num % den) / den = 1 := Nat.div_eq_of_lt_le (by omega) (by omega)
      refine ⟨?_, ?_⟩
      · rw [hdiv, hquotient, Nat.mul_one]
        rfl
      · rw [hmod, Nat.mod_eq_sub_mod hhalf.le, Nat.mod_eq_of_lt (by omega)]
        exact (decide_eq_true (by omega)).symm

/-! ## Operations -/

theorem nearestCode_zero (den : ℕ) : nearestCode 0 den = 0 := by
  unfold nearestCode divNearest
  dsimp only
  rw [Nat.zero_mul, Nat.zero_div, Nat.zero_div, Nat.zero_mod]
  simp

theorem ofRatio_congr (negative : Bool) {a b c d : ℕ} (hb : 0 < b) (hd : 0 < d)
    (h : a * d = c * b) :
    ofRatio negative a (b * unitsPerOne) = ofRatio negative c (d * unitsPerOne) := by
  refine congrArg (ofCode negative) (nearestCode_congr ?_ ?_ ?_)
  · exact Nat.mul_pos hb unitsPerOne_pos
  · exact Nat.mul_pos hd unitsPerOne_pos
  · rw [← Nat.mul_assoc, ← Nat.mul_assoc, h]

/-- Rounding a whole number of units, which can have more bits than a significand or fewer. -/
theorem packed_round {s : Sign} {m : ℕ} (hm : 0 < m) (e : ℤ) :
    packed (UnpackedFloat.round .binary64 s m e) =
      ofRatio (isMinus s) (m * 2 ^ (e + 1074).toNat) (2 ^ (-(e + 1074)).toNat * unitsPerOne) := by
  have htarget := target_eq m e
  have hround : UnpackedFloat.round .binary64 s m e =
      roundWithAccuracy .binary64 s (m <<< (e - target m e).toNat) (e - (e - target m e).toNat)
        .exact := rfl
  have hlog := log2_mul_two_pow_div Nat.one_pos (by rw [Nat.div_one]; exact hm.ne')
    (e - target m e).toNat
  rw [Nat.div_one, Nat.div_one] at hlog
  have htarget' := target_eq (m * 2 ^ (e - target m e).toNat) (e - (e - target m e).toNat)
  rw [hlog] at htarget'
  have hpow : 2 ^ (e - target m e).toNat * 2 ^ (e - (e - target m e).toNat + 1074).toNat *
      2 ^ (-(e + 1074)).toNat =
      2 ^ (e + 1074).toNat * 2 ^ (-(e - (e - target m e).toNat + 1074)).toNat := by
    rw [← pow_add, ← pow_add, ← pow_add]
    congr 1
    omega
  rw [hround, Nat.shiftLeft_eq, packed_eq_ofRatio Nat.one_pos (stands_exact _) (by omega)]
  refine ofRatio_congr _ (by positivity) (by positivity) ?_
  linear_combination m * hpow

theorem pow_mul_unitsPerOne {i j : ℕ} (h : (i : ℤ) + 1074 = j) : 2 ^ i * unitsPerOne = 2 ^ j := by
  obtain ⟨p, hp, hunits⟩ : ∃ p : ℕ, (p : ℤ) = 1074 ∧ unitsPerOne = 2 ^ p :=
    ⟨1074, rfl, by decide +kernel⟩
  rw [hunits, ← pow_add]
  exact congrArg (2 ^ ·) (by omega)

section

variable {x y : Float}

theorem ofRatio_zero (negative : Bool) (den : ℕ) : ofRatio negative 0 den = ofCode negative 0 := by
  rw [ofRatio, nearestCode_zero]

theorem isMinus_mul (a b : Bool) : isMinus (signOf a * signOf b) = (a != b) := by
  cases a <;> cases b <;> rfl

theorem isMinus_div (a b : Bool) : isMinus (signOf a / signOf b) = (a != b) := by
  cases a <;> cases b <;> rfl

/-- A product of significands has enough bits, unless both exponents are the least one. -/
theorem le_target_mul {m n : ℕ} {e f : ℤ} (hm : 0 < m) (hn : 0 < n) (hme : Canonical m e)
    (hnf : Canonical n f) : e + f ≤ target (m * n) (e + f) := by
  have htarget := target_eq (m * n) (e + f)
  have hlarge : 2 ^ 52 ≤ m * n → 52 ≤ (m * n).log2 := fun h ↦ (Nat.le_log2 (by positivity)).mpr h
  obtain h | he := hme.normal
  · have := hlarge (h.trans (Nat.le_mul_of_pos_right m hn))
    omega
  · obtain h | hf := hnf.normal
    · have := hlarge (h.trans (Nat.le_mul_of_pos_left n hm))
      omega
    · omega

/-- A product is the double nearest to the product of the magnitudes. -/
theorem mul_eq (hx : isFinite x = true) (hy : isFinite y = true) :
    x * y = ofRatio (isNegative x != isNegative y) (units x * units y)
      (unitsPerOne * unitsPerOne) := by
  change packed (UnpackedFloat.mul .binary64 (unpacked x) (unpacked y)) = _
  have hzero : ∀ negative, units x * units y = 0 →
      ofCode negative 0 = ofRatio negative (units x * units y) (unitsPerOne * unitsPerOne) := by
    intro negative h
    rw [h, ofRatio_zero]
  obtain ⟨hsx, hux⟩ | ⟨m, e, hm, hsx, hme, hux⟩ := unpacked_cases hx
  · rw [hsx]
    obtain ⟨hsy, -⟩ | ⟨n, f, hn, hsy, -, -⟩ := unpacked_cases hy
    all_goals
      rw [hsy]
      refine (packed_zero _).trans ?_
      rw [isMinus_mul, ← hzero _ (by rw [hux, Nat.zero_mul])]
  · obtain ⟨hsy, huy⟩ | ⟨n, f, hn, hsy, hnf, huy⟩ := unpacked_cases hy
    · rw [hsx, hsy]
      refine (packed_zero _).trans ?_
      rw [isMinus_mul, ← hzero _ (by rw [huy, Nat.mul_zero])]
    · rw [hsx, hsy, hux, huy]
      refine (packed_eq_ofRatio Nat.one_pos (stands_exact _) (le_target_mul hm hn hme hnf)).trans ?_
      rw [isMinus_mul]
      have hpow : 2 ^ (e + f + 1074).toNat * unitsPerOne =
          2 ^ (e + 1074).toNat * 2 ^ (f + 1074).toNat * 2 ^ (-(e + f + 1074)).toNat := by
        have hleast := hme.least
        have hleast' := hnf.least
        rw [← pow_add, ← pow_add]
        exact pow_mul_unitsPerOne (by omega)
      refine ofRatio_congr _ (by positivity) unitsPerOne_pos ?_
      linear_combination m * n * hpow

theorem ofRatio_units (hx : isFinite x = true) :
    ofRatio (isNegative x) (units x) unitsPerOne = x := by
  rw [ofRatio, units, nearestCode_unitsOfCode (code_lt hx).le, ofCode_code]

/-- Significands are added at the smaller one of their exponents. -/
theorem add_finite {m n : ℕ} {e f : ℤ} (hm : 0 < m) (hn : 0 < n) :
    UnpackedFloat.add .binary64 (.finite .positive m e hm) (.finite .positive n f hn) =
      UnpackedFloat.round .binary64 .positive
        (m * 2 ^ (e - min e f).toNat + n * 2 ^ (f - min e f).toNat) (min e f) := by
  have hsum : 0 < m * 2 ^ (e - min e f).toNat + n * 2 ^ (f - min e f).toNat := by positivity
  rw [← Nat.shiftLeft_eq, ← Nat.shiftLeft_eq] at hsum ⊢
  generalize hk : m <<< (e - min e f).toNat + n <<< (f - min e f).toNat = k at hsum ⊢
  have hcompare : compare (k : ℤ) 0 = .gt := Int.compare_eq_gt.mpr (by omega)
  have hnormalize : UnpackedFloat.add .binary64 (.finite .positive m e hm)
      (.finite .positive n f hn) = UnpackedFloat.normalize .binary64 k (min e f) .positive := by
    rw [← hk]
    rfl
  rw [hnormalize, UnpackedFloat.normalize, hcompare, Int.toNat_natCast]

/-- A sum of doubles that are not negative is the double nearest to the sum of the magnitudes. -/
theorem add_eq (hx : isFinite x = true) (hy : isFinite y = true) (hx' : isNegative x = false)
    (hy' : isNegative y = false) : x + y = ofRatio false (units x + units y) unitsPerOne := by
  change packed (UnpackedFloat.add .binary64 (unpacked x) (unpacked y)) = _
  obtain ⟨hsx, hux⟩ | ⟨m, e, hm, hsx, hme, hux⟩ := unpacked_cases hx
  · have hadd : UnpackedFloat.add .binary64 (unpacked x) (unpacked y) = unpacked y := by
      obtain ⟨hsy, -⟩ | ⟨n, f, hn, hsy, -, -⟩ := unpacked_cases hy
      all_goals
        rw [hsx, hsy, hx', hy']
        rfl
    rw [hadd, packed_unpacked, hux, Nat.zero_add, ← hy', ofRatio_units hy]
  · obtain ⟨hsy, huy⟩ | ⟨n, f, hn, hsy, hnf, huy⟩ := unpacked_cases hy
    · have hadd : UnpackedFloat.add .binary64 (unpacked x) (unpacked y) = unpacked x := by
        rw [hsx, hsy]
        rfl
      rw [hadd, packed_unpacked, huy, Nat.add_zero, ← hx', ofRatio_units hx]
    · have hleast := hme.least
      have hleast' := hnf.least
      have hsum : 0 < m * 2 ^ (e - min e f).toNat + n * 2 ^ (f - min e f).toNat := by positivity
      rw [hsx, hsy, hx', hy', hux, huy]
      refine (congrArg packed (add_finite hm hn)).trans ((packed_round hsum _).trans ?_)
      refine (ofRatio_congr _ (by positivity) Nat.one_pos ?_).trans (by rw [Nat.one_mul]; rfl)
      have hplace : (-(min e f + 1074)).toNat = 0 := by omega
      have he : 2 ^ (e - min e f).toNat * 2 ^ (min e f + 1074).toNat = 2 ^ (e + 1074).toNat := by
        rw [← pow_add]
        congr 1
        omega
      have hf : 2 ^ (f - min e f).toNat * 2 ^ (min e f + 1074).toNat = 2 ^ (f + 1074).toNat := by
        rw [← pow_add]
        congr 1
        omega
      rw [hplace]
      linear_combination m * he + n * hf

/-- The quotient of two significands is extended to enough bits. -/
theorem le_target_div {m n : ℕ} {e f t : ℤ} (hm : 0 < m) (hn : 0 < n)
    (ht : t = min (e - f) (max (m.log2 + e - (n.log2 + f) - 53) (-1074))) :
    t ≤ target (m * 2 ^ (e - f - t).toNat / n) t := by
  have htarget := target_eq (m * 2 ^ (e - f - t).toNat / n) t
  obtain hleast | hlarge := le_or_gt t (-1074)
  · omega
  · have hlong : 2 ^ 52 ≤ m * 2 ^ (e - f - t).toNat / n := by
      rw [Nat.le_div_iff_mul_le hn]
      calc 2 ^ 52 * n
        _ ≤ 2 ^ 52 * 2 ^ (n.log2 + 1) := Nat.mul_le_mul_left _ Nat.lt_log2_self.le
        _ = 2 ^ (52 + (n.log2 + 1)) := (pow_add 2 52 _).symm
        _ ≤ 2 ^ (m.log2 + (e - f - t).toNat) := Nat.pow_le_pow_right (by decide) (by omega)
        _ = 2 ^ m.log2 * 2 ^ (e - f - t).toNat := pow_add 2 _ _
        _ ≤ m * 2 ^ (e - f - t).toNat := Nat.mul_le_mul_right _ (Nat.log2_self_le hm.ne')
    have hlog : 52 ≤ (m * 2 ^ (e - f - t).toNat / n).log2 :=
      (Nat.le_log2 (by positivity)).mpr hlong
    omega

/-- A quotient is the double nearest to the quotient of the magnitudes. -/
theorem div_eq (hx : isFinite x = true) (hy : isFinite y = true) (hy' : units y ≠ 0) :
    x / y = ofRatio (isNegative x != isNegative y) (units x) (units y) := by
  change packed (UnpackedFloat.div .binary64 (unpacked x) (unpacked y)) = _
  obtain ⟨-, huy⟩ | ⟨n, f, hn, hsy, hnf, huy⟩ := unpacked_cases hy
  · exact absurd huy hy'
  obtain ⟨hsx, hux⟩ | ⟨m, e, hm, hsx, hme, hux⟩ := unpacked_cases hx
  · rw [hsx, hsy, hux, ofRatio_zero, ← isMinus_div]
    exact packed_zero _
  · have hleast := hme.least
    have hleast' := hnf.least
    rw [hsx, hsy, hux, huy, ← isMinus_div]
    obtain ⟨t, ht⟩ : ∃ t, t = min (e - f) (max (m.log2 + e - (n.log2 + f) - 53) (-1074)) :=
      ⟨_, rfl⟩
    have htarget : min (e - f) (Format.binary64.targetExponent
        (totalExponent m e - totalExponent n f)) = t := by
      change min (e - f) (max ((m.log2 : ℤ) + 1 + e - (n.log2 + 1 + f) - 53) (-1074)) = t
      omega
    have hcore : divCore .binary64 m e n f = (m * 2 ^ (e - f - t).toNat / n, t,
        accuracyOfFraction (m * 2 ^ (e - f - t).toNat % n) n) := by
      rw [← Nat.shiftLeft_eq, ← htarget]
      rfl
    have hdiv : UnpackedFloat.div .binary64 (.finite (signOf (isNegative x)) m e hm)
        (.finite (signOf (isNegative y)) n f hn) =
          match divCore .binary64 m e n f with
          | (m, e, accuracy) => roundWithAccuracy .binary64
              (signOf (isNegative x) / signOf (isNegative y)) m e accuracy := rfl
    have hpow : 2 ^ ((e + 1074).toNat + (-(t + 1074)).toNat) * unitsPerOne =
        2 ^ ((e - f - t).toNat + (t + 1074).toNat + (f + 1074).toNat) :=
      pow_mul_unitsPerOne (by omega)
    rw [hdiv, hcore]
    refine (packed_eq_ofRatio hn (stands_fraction _ hn) (le_target_div hm hn ht)).trans ?_
    refine congrArg (ofCode _) (nearestCode_congr ?_ (by positivity) ?_)
    · exact Nat.mul_pos (by positivity) unitsPerOne_pos
    · rw [pow_add, pow_add, pow_add] at hpow
      linear_combination -(m * n * hpow)

end

/-! ## Units and whole numbers -/

theorem isFinite_one : isFinite 1.0 = true ∧ isNegative 1.0 = false ∧ units 1.0 = unitsPerOne := by
  decide +kernel

/-- Multiplying by one does nothing. -/
theorem mul_one (x : Float) : x * 1.0 = x := by
  obtain ⟨hone, hnegative, hunits⟩ := isFinite_one
  by_cases hx : isFinite x = true
  · rw [mul_eq hx hone, hnegative, hunits, Bool.bne_false]
    refine Eq.trans ?_ (ofRatio_units hx)
    exact congrArg (ofCode _) (nearestCode_mul_mul _ _ unitsPerOne_pos)
  · obtain h | ⟨s, h⟩ := unpacked_of_not_finite (Bool.eq_false_iff.mpr hx)
    · refine Eq.trans ?_ (packed_unpacked x)
      change packed (UnpackedFloat.mul .binary64 (unpacked x) (unpacked 1.0)) = _
      rw [h]
      rfl
    · obtain hzero | ⟨m, e, hm, hs, -⟩ := unpacked_cases hone
      · exact absurd (hunits.symm.trans hzero.2) unitsPerOne_pos.ne'
      · refine Eq.trans ?_ (packed_unpacked x)
        change packed (UnpackedFloat.mul .binary64 (unpacked x) (unpacked 1.0)) = _
        rw [h, hs, hnegative]
        cases s <;> rfl

theorem mul_comm (x y : Float) : x * y = y * x := by
  have hsign : ∀ s t : Sign, s * t = t * s := by rintro (_ | _) (_ | _) <;> rfl
  refine congrArg packed ?_
  change UnpackedFloat.mul .binary64 (unpacked x) (unpacked y) =
    UnpackedFloat.mul .binary64 (unpacked y) (unpacked x)
  cases unpacked x <;> cases unpacked y <;>
    simp only [UnpackedFloat.mul, hsign, Nat.mul_comm, Int.add_comm]

theorem one_mul (x : Float) : 1.0 * x = x :=
  (mul_comm _ _).trans (mul_one x)

theorem packed_ofNat (n : ℕ) : packed (UnpackedFloat.ofNat .binary64 n) = ofRatio false n 1 := by
  obtain rfl | hn := Nat.eq_zero_or_pos n
  · rw [ofRatio_zero]
    exact packed_zero .positive
  · have hcompare : compare (n : ℤ) 0 = .gt := Int.compare_eq_gt.mpr (by omega)
    unfold UnpackedFloat.ofNat UnpackedFloat.ofInt UnpackedFloat.normalize
    rw [hcompare, Int.toNat_natCast]
    refine (packed_round hn 0).trans (congrArg (ofCode false) ?_)
    have hpow : 2 ^ ((0 : ℤ) + 1074).toNat = 2 ^ (-((0 : ℤ) + 1074)).toNat * unitsPerOne :=
      (pow_mul_unitsPerOne (by omega)).symm
    exact nearestCode_congr (Nat.mul_pos (by positivity) unitsPerOne_pos) Nat.one_pos
      (by linear_combination n * hpow)

theorem ofScientific_eq {n : ℕ} (hn : n ≠ 0) : UnpackedFloat.ofScientific .binary64 n 0 =
    roundWithAccuracy .binary64 .positive (n <<< 53 * 10 ^ 0) (-53 + 0) .exact := by
  have hleast : ¬(0 : ℤ) < -(2 ^ 11 + (n.log2 : ℤ)) := by omega
  unfold UnpackedFloat.ofScientific
  rw [dif_neg hn, if_neg (by decide), if_neg hleast, if_pos (by decide)]
  rfl

/-- The double of a natural is the nearest one. -/
theorem ofNat_eq (n : ℕ) : Float.ofNat n = ofRatio false n 1 := by
  change Float.ofScientific n false 0 = _
  unfold Float.ofScientific
  by_cases hlt : n < 2 ^ 53
  · rw [dif_pos ⟨hlt, by decide⟩]
    have hone : Float.exactlyRepresentablePowersOfTen[0] = 1.0 := by decide +kernel
    have hnat : (UInt64.ofNat n).toNat = n := by
      rw [UInt64.toNat_ofNat']
      exact Nat.mod_eq_of_lt (by omega)
    have hcast : (UInt64.ofNat n).toFloat =
        packed (UnpackedFloat.ofNat .binary64 (UInt64.ofNat n).toNat) := rfl
    dsimp only
    rw [if_neg Bool.false_ne_true, hone, mul_one]
    exact hcast.trans (by rw [packed_ofNat, hnat])
  · have hn : n ≠ 0 := by omega
    rw [dif_neg fun hsmall ↦ hlt hsmall.1]
    change packed (UnpackedFloat.ofScientific .binary64 n 0) = _
    have hpow : 2 ^ 53 * 2 ^ (-53 + 0 + 1074 : ℤ).toNat =
        2 ^ (-(-53 + 0 + 1074 : ℤ)).toNat * unitsPerOne := by
      rw [← pow_add]
      exact (pow_mul_unitsPerOne (by omega)).symm
    obtain ⟨m, hm⟩ : ∃ m, m = n <<< 53 * 10 ^ 0 := ⟨_, rfl⟩
    have hvalue : m = n * 2 ^ 53 := by rw [hm, Nat.shiftLeft_eq, pow_zero, Nat.mul_one]
    have hlong : 52 ≤ m.log2 := (Nat.le_log2 (by omega)).mpr (by omega)
    have htarget := target_eq m (-53 + 0)
    rw [ofScientific_eq hn, ← hm, packed_eq_ofRatio Nat.one_pos (stands_exact m) (by omega)]
    refine congrArg (ofCode _) (nearestCode_congr ?_ Nat.one_pos ?_)
    · exact Nat.mul_pos (by positivity) unitsPerOne_pos
    · rw [hvalue]
      linear_combination n * hpow

/-- The double of the integral part of a double without a fraction. -/
theorem isFinite_ofNat_truncate {x : Float} (hx : isInteger x = true) :
    isFinite (Float.ofNat (truncate x).toNat) = true := by
  rw [ofNat_eq]
  obtain hneg | hnonneg := lt_or_ge (truncate x) 0
  · rw [Int.toNat_of_nonpos hneg.le, ofRatio_zero]
    decide +kernel
  · have hsame := same_truncate hx
    have hnat : (truncate x).toNat = (truncate x).natAbs := by omega
    rw [decide_eq_false (not_lt.mpr hnonneg)] at hsame
    rw [hnat, ofRatio]
    obtain heq | ⟨hzero, -⟩ := hsame
    · rw [heq]
      exact (Bool.and_eq_true_iff.mp hx).1
    · rw [isFinite, hzero]
      decide +kernel

/-! ## Operands of finite results -/

/-- The unpacked forms of finite doubles. -/
def Bounded : UnpackedFloat → Prop
  | .zero _ | .finite .. => True
  | .infinity _ | .notANumber => False

theorem bounded_of_packed {u : UnpackedFloat} (h : isFinite (packed u) = true) : Bounded u := by
  cases u with
  | zero s => trivial
  | finite s m e hm => trivial
  | infinity s => exact Bool.false_ne_true ((isFinite_packed_infinity s).symm.trans h)
  | notANumber => exact Bool.false_ne_true (isFinite_packed_notANumber.symm.trans h)

theorem isFinite_of_bounded {x : Float} (h : Bounded (unpacked x)) : isFinite x = true := by
  by_contra hx
  obtain hs | ⟨s, hs⟩ := unpacked_of_not_finite (Bool.eq_false_iff.mpr hx)
  all_goals
    rw [hs] at h
    exact h

section

variable {x y : Float}

/-- A sum that is finite has finite terms: no number takes an infinity back. -/
theorem isFinite_of_add (h : isFinite (x + y) = true) : isFinite x = true ∧ isFinite y = true := by
  have key : ∀ u v, Bounded (UnpackedFloat.add .binary64 u v) → Bounded u ∧ Bounded v := by
    intro u v hadd
    have hinfinities : ∀ s t : Sign, ¬Bounded
        (UnpackedFloat.add .binary64 (.infinity s) (.infinity t)) := by
      rintro (_ | _) (_ | _) <;> exact id
    cases u <;> cases v <;>
      first | exact ⟨trivial, trivial⟩ | exact hadd.elim | exact absurd hadd (hinfinities _ _)
  exact (key _ _ (bounded_of_packed h)).imp isFinite_of_bounded isFinite_of_bounded

theorem isFinite_of_mul (h : isFinite (x * y) = true) : isFinite x = true ∧ isFinite y = true := by
  have key : ∀ u v, Bounded (UnpackedFloat.mul .binary64 u v) → Bounded u ∧ Bounded v := by
    intro u v hmul
    cases u <;> cases v <;> first | exact ⟨trivial, trivial⟩ | exact hmul.elim
  exact (key _ _ (bounded_of_packed h)).imp isFinite_of_bounded isFinite_of_bounded

theorem isFinite_of_div (h : isFinite (x / y) = true) : isFinite x = true := by
  have key : ∀ u v, Bounded (UnpackedFloat.div .binary64 u v) → Bounded u := by
    intro u v hdiv
    cases u <;> cases v <;> trivial
  exact isFinite_of_bounded (key _ _ (bounded_of_packed h))

end

end WaveNotebook.Binary64
