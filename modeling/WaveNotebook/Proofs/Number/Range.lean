import WaveNotebook.Proofs.Number.Rounding

/-!
# Bounds of rounded numbers

Rounding keeps the order, and it leaves doubles alone. So a quotient that is not above a double is
rounded to a double that is not above it, and in the same way from below. An infinity counts as the
magnitude that follows the greatest finite one. Powers of two and small multiples of them are
doubles, and bounds by these pass from the operands of the arithmetic to its results.
-/

namespace WaveNotebook.Binary64

open Float.Model UnpackedFloat

/-! ## The order of codes -/

theorem divNearest_mono {a b : ℕ} (h : a ≤ b) (d : ℕ) : divNearest a d ≤ divNearest b d := by
  obtain hlt | heq := Nat.lt_or_eq_of_le (Nat.div_le_div_right (c := d) h)
  · exact (divNearest_bounds a d).2.trans (hlt.trans_le (divNearest_bounds b d).1)
  · have hmod : a % d ≤ b % d := by
      have ha := Nat.div_add_mod a d
      have hb := Nat.div_add_mod b d
      rw [heq] at ha
      omega
    unfold divNearest
    dsimp only
    rw [heq]
    split_ifs <;> omega

/-- A significand has at most 53 bits, or it is the power that follows, and it has no fewer unless
the exponent is the least one. -/
theorem divNearest_significand (v d : ℕ) :
    divNearest v (d * 2 ^ ((v / d).log2 - 52)) ≤ 2 ^ 53 ∧
      ((v / d).log2 - 52 = 0 ∨ 2 ^ 52 ≤ divNearest v (d * 2 ^ ((v / d).log2 - 52))) := by
  have hbounds := divNearest_bounds v (d * 2 ^ ((v / d).log2 - 52))
  rw [← Nat.div_div_eq_div_mul] at hbounds
  have hlt : v / d / 2 ^ ((v / d).log2 - 52) < 2 ^ 53 := by
    rw [Nat.div_lt_iff_lt_mul (by positivity), ← pow_add]
    exact Nat.lt_log2_self.trans_le (Nat.pow_le_pow_right (by decide) (by omega))
  refine ⟨hbounds.2.trans hlt, ?_⟩
  by_cases hzero : (v / d).log2 - 52 = 0
  · exact .inl hzero
  · have hpos : v / d ≠ 0 := by
      intro h
      rw [h] at hzero
      exact hzero rfl
    refine .inr (hbounds.1.trans' ((Nat.le_div_iff_mul_le (by positivity)).mpr ?_))
    rw [← pow_add]
    exact (Nat.pow_le_pow_right (by decide) (by omega)).trans (Nat.log2_self_le hpos)

theorem log2_mono {m n : ℕ} (h : m ≤ n) : m.log2 ≤ n.log2 := by
  rw [Nat.log2_eq_log_two, Nat.log2_eq_log_two]
  exact Nat.log_mono_right h

theorem nearestCode_mono_left {a b : ℕ} (h : a ≤ b) (d : ℕ) :
    nearestCode a d ≤ nearestCode b d := by
  unfold nearestCode
  dsimp only
  have hle : a * unitsPerOne ≤ b * unitsPerOne := Nat.mul_le_mul_right _ h
  generalize a * unitsPerOne = v at *
  generalize b * unitsPerOne = w at *
  refine min_le_min_right _ ?_
  have hlog := log2_mono (Nat.div_le_div_right (c := d) hle)
  obtain hlt | heq := Nat.lt_or_eq_of_le (Nat.sub_le_sub_right hlog 52)
  · obtain ⟨hmost, -⟩ := divNearest_significand v d
    obtain ⟨-, hleast⟩ := divNearest_significand w d
    have hleast := hleast.resolve_left (by omega)
    have hcount : fractionCount = 2 ^ 52 := rfl
    change _ * fractionCount + divNearest v (d * 2 ^ ((v / d).log2 - 52)) ≤
      _ * fractionCount + divNearest w (d * 2 ^ ((w / d).log2 - 52))
    rw [hcount]
    omega
  · rw [heq]
    exact Nat.add_le_add_left (divNearest_mono hle _) _

/-- A greater quotient has no smaller code. -/
theorem nearestCode_mono {a b c d : ℕ} (hb : 0 < b) (hd : 0 < d) (h : a * d ≤ c * b) :
    nearestCode a b ≤ nearestCode c d := by
  rw [← nearestCode_mul_mul a b hd, ← nearestCode_mul_mul c d hb, Nat.mul_comm d b]
  exact nearestCode_mono_left h _

theorem nearestCode_le {a b c : ℕ} (hb : 0 < b) (h : a * unitsPerOne ≤ unitsOfCode c * b) :
    nearestCode a b ≤ c := by
  obtain hc | hc := Nat.lt_or_ge c infinityCode
  · rw [← nearestCode_unitsOfCode hc.le]
    exact nearestCode_mono hb unitsPerOne_pos h
  · exact (Nat.min_le_right _ _).trans hc

theorem le_nearestCode {a b c : ℕ} (hb : 0 < b) (hc : c ≤ infinityCode)
    (h : unitsOfCode c * b ≤ a * unitsPerOne) : c ≤ nearestCode a b := by
  rw [← nearestCode_unitsOfCode hc]
  exact nearestCode_mono unitsPerOne_pos hb h

/-- Greater codes are those of greater magnitudes. -/
theorem unitsOfCode_mono {a b : ℕ} (h : a ≤ b) : unitsOfCode a ≤ unitsOfCode b := by
  have hcount : fractionCount = 2 ^ 52 := rfl
  have hpow : ∀ {i j : ℕ}, i ≤ j → 2 ^ i ≤ 2 ^ j := Nat.pow_le_pow_right (by decide)
  have hnormal : ∀ {c : ℕ}, ¬c < 2 ^ 52 →
      unitsOfCode c = (2 ^ 52 + c % 2 ^ 52) * 2 ^ (c / 2 ^ 52 - 1) := fun hc ↦ if_neg hc
  by_cases ha : a < 2 ^ 52
  · rw [show unitsOfCode a = a from if_pos ha]
    by_cases hb : b < 2 ^ 52
    · rwa [show unitsOfCode b = b from if_pos hb]
    · rw [hnormal hb]
      exact (Nat.le_mul_of_pos_right _ (Nat.two_pow_pos _)).trans' (by omega)
  · rw [hnormal ha, hnormal (by omega)]
    obtain hlt | heq := Nat.lt_or_eq_of_le (Nat.div_le_div_right (c := 2 ^ 52) h)
    · calc (2 ^ 52 + a % 2 ^ 52) * 2 ^ (a / 2 ^ 52 - 1)
        _ ≤ 2 ^ 53 * 2 ^ (a / 2 ^ 52 - 1) := Nat.mul_le_mul_right _ (by omega)
        _ = 2 ^ 52 * 2 ^ (a / 2 ^ 52 - 1 + 1) := by rw [← pow_add, ← pow_add]; congr 1; omega
        _ ≤ 2 ^ 52 * 2 ^ (b / 2 ^ 52 - 1) := Nat.mul_le_mul_left _ (hpow (by omega))
        _ ≤ (2 ^ 52 + b % 2 ^ 52) * 2 ^ (b / 2 ^ 52 - 1) :=
          Nat.mul_le_mul_right _ (Nat.le_add_right _ _)
    · rw [heq]
      exact Nat.mul_le_mul_right _ (by omega)

/-! ## Magnitudes that are doubles -/

/-- A multiple of a power of two that fits into a significand has a code. -/
theorem exists_unitsOfCode_eq {n : ℕ} (hn : n ≤ 2 ^ 53) (j : ℕ) :
    ∃ c, unitsOfCode c = n * 2 ^ j := by
  have hnormal : ∀ (m : ℕ) {r : ℕ}, r < 2 ^ 52 → unitsOfCode ((m + 1) * 2 ^ 52 + r) =
      (2 ^ 52 + r) * 2 ^ m := by
    intro m r hr
    have hlarge : ¬(m + 1) * 2 ^ 52 + r < 2 ^ 52 := by omega
    have hmod : ((m + 1) * 2 ^ 52 + r) % 2 ^ 52 = r := by omega
    have hdiv : ((m + 1) * 2 ^ 52 + r) / 2 ^ 52 - 1 = m := by omega
    refine (if_neg hlarge).trans ?_
    change (2 ^ 52 + ((m + 1) * 2 ^ 52 + r) % 2 ^ 52) *
      2 ^ (((m + 1) * 2 ^ 52 + r) / 2 ^ 52 - 1) = _
    rw [hmod, hdiv]
  induction j generalizing n with
  | zero =>
    obtain hlt | hle := Nat.lt_or_ge n (2 ^ 52)
    · exact ⟨n, (if_pos hlt).trans (Nat.mul_one n).symm⟩
    · obtain rfl | hlt := Nat.eq_or_lt_of_le hn
      · exact ⟨(1 + 1) * 2 ^ 52 + 0, hnormal 1 (by decide)⟩
      · refine ⟨(0 + 1) * 2 ^ 52 + (n - 2 ^ 52), (hnormal 0 (by omega)).trans ?_⟩
        rw [Nat.add_sub_cancel' hle]
  | succ j ih =>
    obtain hlt | hle := Nat.lt_or_ge n (2 ^ 52)
    · rw [pow_succ', ← Nat.mul_assoc]
      exact ih (by omega)
    · obtain rfl | hlt := Nat.eq_or_lt_of_le hn
      · refine ⟨(j + 2 + 1) * 2 ^ 52 + 0, (hnormal (j + 2) (by decide)).trans ?_⟩
        rw [Nat.add_zero, ← pow_add, ← pow_add]
        congr 1
        omega
      · refine ⟨(j + 1 + 1) * 2 ^ 52 + (n - 2 ^ 52), (hnormal (j + 1) (by omega)).trans ?_⟩
        rw [Nat.add_sub_cancel' hle]

/-- All finite doubles are below this power of two. -/
def rangeExponent : ℕ := 2098

theorem unitsOfCode_infinityCode : unitsOfCode infinityCode = 2 ^ rangeExponent := by
  decide +kernel

theorem two_pow_mul_le {a b c : ℕ} (h : a + b ≤ c) : 2 ^ a * 2 ^ b ≤ 2 ^ c :=
  (pow_add 2 a b).symm.trans_le (Nat.pow_le_pow_right (by decide) h)

theorem le_two_pow_mul {a b c : ℕ} (h : c ≤ a + b) : 2 ^ c ≤ 2 ^ a * 2 ^ b :=
  (Nat.pow_le_pow_right (by decide) h).trans_eq (pow_add 2 a b)

theorem exists_unitsPerOne : ∃ p : ℕ, p = 1074 ∧ unitsPerOne = 2 ^ p := by
  obtain ⟨p, hp⟩ : ∃ p : ℕ, p = 1074 := ⟨_, rfl⟩
  refine ⟨p, hp, ?_⟩
  rw [← pow_mul_unitsPerOne (show ((0 : ℕ) : ℤ) + 1074 = p by omega), pow_zero, Nat.one_mul]

section

variable {s : Bool} {a b n j k : ℕ} {x y : Float}

theorem units_ofRatio (s : Bool) (a b : ℕ) :
    units (ofRatio s a b) = unitsOfCode (nearestCode a b) := by
  exact congrArg unitsOfCode (code_ofCode s (Nat.min_le_right _ _))

theorem units_ofRatio_le (hb : 0 < b) (hn : n ≤ 2 ^ 53) (h : a * unitsPerOne ≤ n * 2 ^ j * b) :
    units (ofRatio s a b) ≤ n * 2 ^ j := by
  obtain ⟨c, hc⟩ := exists_unitsOfCode_eq hn j
  rw [← hc] at h ⊢
  rw [units_ofRatio]
  exact unitsOfCode_mono (nearestCode_le hb h)

theorem units_le_ofRatio (hb : 0 < b) (hx : code x ≤ infinityCode)
    (h : units x * b ≤ a * unitsPerOne) : units x ≤ units (ofRatio s a b) := by
  rw [units_ofRatio]
  exact unitsOfCode_mono (le_nearestCode hb hx h)

theorem two_pow_le_ofRatio (hb : 0 < b) (hk : k ≤ rangeExponent) (h : 2 ^ k * b ≤ a * unitsPerOne) :
    2 ^ k ≤ units (ofRatio s a b) := by
  rw [units_ofRatio]
  obtain ⟨c, hc⟩ := exists_unitsOfCode_eq (show 1 ≤ 2 ^ 53 by decide) k
  rw [Nat.one_mul] at hc
  have hle : ∃ c ≤ infinityCode, unitsOfCode c = 2 ^ k := by
    obtain hlt | hle := Nat.lt_or_ge infinityCode c
    · refine ⟨infinityCode, le_rfl, Nat.le_antisymm (hc ▸ unitsOfCode_mono hlt.le) ?_⟩
      rw [unitsOfCode_infinityCode]
      exact Nat.pow_le_pow_right (by decide) hk
    · exact ⟨c, hle, hc⟩
  obtain ⟨c, hle, hc⟩ := hle
  rw [← hc] at h ⊢
  exact unitsOfCode_mono (le_nearestCode hb hle h)

theorem isFinite_of_units_le (hk : k < rangeExponent) (h : units x ≤ 2 ^ k) :
    isFinite x = true := by
  by_contra hx
  have hcode : infinityCode ≤ code x := Nat.le_of_not_lt fun hlt ↦ hx (decide_eq_true hlt)
  have hle := (unitsOfCode_mono hcode).trans h
  rw [unitsOfCode_infinityCode] at hle
  exact absurd ((Nat.pow_le_pow_iff_right (by decide)).mp hle) (by omega)

theorem units_le_two_pow (hx : code x ≤ infinityCode) : units x ≤ 2 ^ rangeExponent := by
  rw [← unitsOfCode_infinityCode]
  exact unitsOfCode_mono hx

end

/-! ## Numbers that are not negative -/

/-- A finite number that is not negative, or infinity. -/
structure Nonneg (x : Float) : Prop where
  sign : isNegative x = false
  code_le : code x ≤ infinityCode

theorem nonneg_ofRatio (a b : ℕ) : Nonneg (ofRatio false a b) :=
  ⟨isNegative_ofCode false (Nat.min_le_right _ _),
    (code_ofCode false (Nat.min_le_right _ _)).trans_le (Nat.min_le_right _ _)⟩

theorem nonneg_infinity : Nonneg infinity :=
  ⟨isNegative_ofCode false le_rfl, (code_ofCode false le_rfl).le⟩

theorem units_infinity : units infinity = 2 ^ rangeExponent :=
  (congrArg unitsOfCode (code_ofCode false le_rfl)).trans unitsOfCode_infinityCode

theorem unpacked_infinity : unpacked infinity = .infinity .positive := by
  refine (unpacked_of_infinite (code_ofCode false le_rfl)).trans ?_
  exact congrArg (fun b ↦ UnpackedFloat.infinity (signOf b)) (isNegative_ofCode false le_rfl)

theorem packed_infinity_positive : packed (.infinity .positive) = infinity :=
  packed_infinity .positive

section

variable {x y : Float} {n m j k : ℕ}

theorem Nonneg.cases (hx : Nonneg x) : isFinite x = true ∨ x = infinity := by
  obtain hlt | heq := Nat.lt_or_eq_of_le hx.code_le
  · exact .inl (decide_eq_true hlt)
  · refine .inr ?_
    rw [← ofCode_code x, hx.sign, heq]
    rfl

/-! ### Sums -/

theorem infinity_add (hy : Nonneg y) : infinity + y = infinity := by
  change packed (UnpackedFloat.add .binary64 (unpacked infinity) (unpacked y)) = _
  rw [unpacked_infinity]
  obtain hy | rfl := hy.cases
  · obtain ⟨hs, -⟩ | ⟨m, e, h, hs, -⟩ := unpacked_cases hy
    all_goals
      rw [hs]
      exact packed_infinity_positive
  · rw [unpacked_infinity]
    exact packed_infinity_positive

theorem add_infinity (hx : Nonneg x) : x + infinity = infinity := by
  change packed (UnpackedFloat.add .binary64 (unpacked x) (unpacked infinity)) = _
  rw [unpacked_infinity]
  obtain hx | rfl := hx.cases
  · obtain ⟨hs, -⟩ | ⟨m, e, h, hs, -⟩ := unpacked_cases hx
    all_goals
      rw [hs]
      exact packed_infinity_positive
  · rw [unpacked_infinity]
    exact packed_infinity_positive

/-- A sum of numbers that are not negative is infinite, or it is rounded from the exact sum. -/
theorem Nonneg.add_cases (hx : Nonneg x) (hy : Nonneg y) :
    x + y = ofRatio false (units x + units y) unitsPerOne ∨
      x + y = infinity ∧ (x = infinity ∨ y = infinity) := by
  obtain hx' | rfl := hx.cases
  · obtain hy' | rfl := hy.cases
    · exact .inl (add_eq hx' hy' hx.sign hy.sign)
    · exact .inr ⟨add_infinity hx, .inr rfl⟩
  · exact .inr ⟨infinity_add hy, .inl rfl⟩

theorem Nonneg.add (hx : Nonneg x) (hy : Nonneg y) : Nonneg (x + y) := by
  obtain h | ⟨h, -⟩ := hx.add_cases hy
  · rw [h]
    exact nonneg_ofRatio _ _
  · rw [h]
    exact nonneg_infinity

theorem Nonneg.units_le_add (hx : Nonneg x) (hy : Nonneg y) :
    units x ≤ units (x + y) ∧ units y ≤ units (x + y) := by
  obtain h | ⟨h, -⟩ := hx.add_cases hy
  · rw [h]
    constructor
    · exact units_le_ofRatio unitsPerOne_pos hx.code_le
        (Nat.mul_le_mul_right _ (Nat.le_add_right _ _))
    · exact units_le_ofRatio unitsPerOne_pos hy.code_le
        (Nat.mul_le_mul_right _ (Nat.le_add_left _ _))
  · rw [h, units_infinity]
    exact ⟨units_le_two_pow hx.code_le, units_le_two_pow hy.code_le⟩

theorem Nonneg.units_add_le (hx : Nonneg x) (hy : Nonneg y) (hmn : m + n ≤ 2 ^ 53)
    (hm : units x ≤ m * 2 ^ j) (hn : units y ≤ n * 2 ^ j) : units (x + y) ≤ (m + n) * 2 ^ j := by
  obtain h | ⟨h, rfl | rfl⟩ := hx.add_cases hy
  · rw [h]
    refine units_ofRatio_le unitsPerOne_pos hmn (Nat.mul_le_mul_right _ ?_)
    rw [Nat.add_mul]
    exact Nat.add_le_add hm hn
  · rw [h]
    exact hm.trans (Nat.mul_le_mul_right _ (Nat.le_add_right _ _))
  · rw [h]
    exact hn.trans (Nat.mul_le_mul_right _ (Nat.le_add_left _ _))

/-! ### Squares and fourth powers -/

theorem mul_self_eq (hx : isFinite x = true) :
    x * x = ofRatio false (units x * units x) (unitsPerOne * unitsPerOne) := by
  rw [mul_eq hx hx, bne_self_eq_false]

theorem two_pow_le_mul_self (hx : isFinite x = true) (hk : k ≤ rangeExponent)
    (h : 2 ^ k * unitsPerOne ≤ units x * units x) : 2 ^ k ≤ units (x * x) := by
  rw [mul_self_eq hx]
  refine two_pow_le_ofRatio (Nat.mul_pos unitsPerOne_pos unitsPerOne_pos) hk ?_
  rw [← Nat.mul_assoc]
  exact Nat.mul_le_mul_right _ h

/-- The square of a number from a power of two on. -/
theorem two_pow_le_mul_self_of_le (hx : isFinite x = true) (hk : k ≤ rangeExponent)
    (hb : 2 ^ b ≤ units x) (hkb : k + 1074 ≤ 2 * b) : 2 ^ k ≤ units (x * x) := by
  obtain ⟨p, hp, hone⟩ := exists_unitsPerOne
  refine two_pow_le_mul_self hx hk ?_
  rw [hone]
  calc 2 ^ k * 2 ^ p
    _ ≤ 2 ^ (b + b) := two_pow_mul_le (by omega)
    _ ≤ 2 ^ b * 2 ^ b := le_two_pow_mul le_rfl
    _ ≤ units x * units x := Nat.mul_le_mul hb hb

theorem fourthPower_eq (hx : isFinite x = true) :
    fourthPower x = ofRatio false (units x ^ 4) (unitsPerOne ^ 4) := by
  rw [fourthPower, if_pos hx, Nat.pow_eq, Nat.pow_eq]

theorem fourthPower_le (hx : isFinite x = true) (h : units x ^ 4 ≤ 2 ^ k * unitsPerOne ^ 3) :
    units (fourthPower x) ≤ 2 ^ k := by
  rw [fourthPower_eq hx]
  rw [← Nat.one_mul (2 ^ k)] at h ⊢
  refine units_ofRatio_le (Nat.pow_pos unitsPerOne_pos) (by decide) ?_
  rw [pow_succ unitsPerOne, ← Nat.mul_assoc]
  exact Nat.mul_le_mul_right _ h

/-! ### Quotients -/

theorem infinity_div (hy : isFinite y = true) (hy' : isNegative y = false) :
    infinity / y = infinity := by
  change packed (UnpackedFloat.div .binary64 (unpacked infinity) (unpacked y)) = _
  rw [unpacked_infinity]
  obtain ⟨hs, -⟩ | ⟨m, e, h, hs, -⟩ := unpacked_cases hy
  all_goals
    rw [hs, hy']
    exact packed_infinity_positive

theorem div_infinity (hx : isFinite x = true) : x / infinity = ofCode (isNegative x) 0 := by
  have hsign : isMinus (signOf (isNegative x) / .positive) = isNegative x := by
    cases isNegative x <;> rfl
  change packed (UnpackedFloat.div .binary64 (unpacked x) (unpacked infinity)) = _
  rw [unpacked_infinity, ← hsign, ← packed_zero]
  obtain ⟨hs, -⟩ | ⟨m, e, h, hs, -⟩ := unpacked_cases hx
  all_goals
    rw [hs]
    rfl

/-- A quotient by a number that is not negative and not zero. -/
theorem Nonneg.units_div_le (hy : Nonneg y) (hx : isFinite x = true) (hy' : units y ≠ 0)
    (h : units x * unitsPerOne ≤ 2 ^ k * units y) : units (x / y) ≤ 2 ^ k := by
  obtain hfinite | rfl := hy.cases
  · rw [div_eq hx hfinite hy']
    rw [← Nat.one_mul (2 ^ k)] at h ⊢
    exact units_ofRatio_le (Nat.pos_of_ne_zero hy') (by decide) h
  · rw [div_infinity hx, units, code_ofCode_zero]
    exact Nat.zero_le _

/-- A quotient of powers of two whose exponents are not too far apart does not overflow, and
neither does one of a smaller number by a greater one. -/
theorem Nonneg.isFinite_div_of_le (hy : Nonneg y) (hx : isFinite x = true)
    (ha : units x ≤ 2 ^ a) (hb : 2 ^ b ≤ units y) (hab : a + 1074 < rangeExponent + b) :
    isFinite (x / y) = true := by
  have hrange : rangeExponent = 2098 := rfl
  obtain ⟨p, hp, hone⟩ := exists_unitsPerOne
  have hpos : units y ≠ 0 := ((Nat.two_pow_pos b).trans_le hb).ne'
  refine isFinite_of_units_le (k := 2097) (by omega) (hy.units_div_le hx hpos ?_)
  rw [hone]
  calc units x * 2 ^ p
    _ ≤ 2 ^ a * 2 ^ p := Nat.mul_le_mul_right _ ha
    _ ≤ 2 ^ (2097 + b) := two_pow_mul_le (by omega)
    _ ≤ 2 ^ 2097 * 2 ^ b := le_two_pow_mul le_rfl
    _ ≤ 2 ^ 2097 * units y := Nat.mul_le_mul_left _ hb

/-! ### Square roots -/

theorem sqrt_infinity : infinity.sqrt = infinity := by
  change packed (UnpackedFloat.sqrt .binary64 (unpacked infinity)) = _
  rw [unpacked_infinity]
  exact packed_infinity_positive

/-- The residual bits of a square root are those of a quotient by four. -/
theorem exists_stands_sqrt (root rest : ℕ) : ∃ j < 4, Stands (.ofMantissaAndAccuracy root
    (if rest = 0 then .exact else .inexact (if rest ≤ root then .lt else .gt)))
      (4 * root + j) 4 := by
  split
  · refine ⟨0, by decide, ?_, ?_⟩
    · change 2 * root = _
      omega
    · exact (decide_eq_false (by omega)).symm
  · split
    · refine ⟨1, by decide, ?_, ?_⟩
      · change 2 * root = _
        omega
      · exact (decide_eq_true (by omega)).symm
    · refine ⟨3, by decide, ?_, ?_⟩
      · change 2 * root + 1 = _
        omega
      · exact (decide_eq_true (by omega)).symm

/-- The significand of a square root is extended to enough bits. -/
theorem le_target_sqrt {m : ℕ} {e t : ℤ} (hm : 0 < m)
    (ht : t = min (e / 2) (max ((m.log2 + 1 + e + 1) / 2 - 53) (-1074))) :
    t ≤ target (m * 2 ^ (e - 2 * t).toNat).sqrt t := by
  have htarget := target_eq (m * 2 ^ (e - 2 * t).toNat).sqrt t
  obtain hle | hlt := le_or_gt t (-1074)
  · omega
  · have hlong : 2 ^ 52 ≤ (m * 2 ^ (e - 2 * t).toNat).sqrt := by
      rw [Nat.le_sqrt, ← pow_add]
      calc 2 ^ (52 + 52)
        _ ≤ 2 ^ (m.log2 + (e - 2 * t).toNat) := Nat.pow_le_pow_right (by decide) (by omega)
        _ = 2 ^ m.log2 * 2 ^ (e - 2 * t).toNat := pow_add 2 _ _
        _ ≤ m * 2 ^ (e - 2 * t).toNat := Nat.mul_le_mul_right _ (Nat.log2_self_le hm.ne')
    have hlog : 52 ≤ (m * 2 ^ (e - 2 * t).toNat).sqrt.log2 :=
      (Nat.le_log2 (by omega)).mpr hlong
    omega

/-- A square root is rounded from the whole root of a number of squares of a power of two, with what
is known of the rest in quarters. -/
theorem exists_sqrt_eq (hx : isFinite x = true) (hsign : isNegative x = false)
    (hpos : units x ≠ 0) : ∃ v p j, j < 4 ∧ v ≠ 0 ∧ units x * unitsPerOne = v * (2 ^ p * 2 ^ p) ∧
      x.sqrt = ofRatio false ((4 * v.sqrt + j) * 2 ^ p) (4 * unitsPerOne) := by
  obtain ⟨-, hzero⟩ | ⟨m, e, hm, hs, hcanonical, hunits⟩ := unpacked_cases hx
  · exact absurd hzero hpos
  have hleast := hcanonical.least
  obtain ⟨t, ht⟩ : ∃ t, t = min (e / 2) (max ((m.log2 + 1 + e + 1) / 2 - 53) (-1074)) := ⟨_, rfl⟩
  obtain ⟨v, hv⟩ : ∃ v, v = m * 2 ^ (e - 2 * t).toNat := ⟨_, rfl⟩
  obtain ⟨j, hj, hstands⟩ := exists_stands_sqrt v.sqrt (v - v.sqrt * v.sqrt)
  have hlarge : t ≤ target v.sqrt t := hv ▸ le_target_sqrt hm ht
  refine ⟨v, (t + 1074).toNat, j, hj, ?_, ?_, ?_⟩
  · rw [hv]
    positivity
  · have hpow : 2 ^ (e + 1074).toNat * unitsPerOne =
        2 ^ ((e - 2 * t).toNat + ((t + 1074).toNat + (t + 1074).toNat)) :=
      pow_mul_unitsPerOne (by omega)
    rw [pow_add, pow_add] at hpow
    rw [hunits, hv, Nat.mul_assoc, hpow, Nat.mul_assoc]
  · have hcore : sqrtCore .binary64 m e = (v.sqrt, t,
        if v - v.sqrt * v.sqrt = 0 then .exact
        else .inexact (if v - v.sqrt * v.sqrt ≤ v.sqrt then .lt else .gt)) := by
      have htarget : min (e.ediv 2)
          (Format.binary64.targetExponent ((totalExponent m e + 1).ediv 2)) = t := by
        change min (e / 2) (max (((m.log2 : ℤ) + 1 + e + 1) / 2 - 53) (-1074)) = t
        omega
      rw [hv, ← Nat.shiftLeft_eq, ← htarget]
      rfl
    have hsqrt : UnpackedFloat.sqrt .binary64 (.finite .positive m e hm) =
        match sqrtCore .binary64 m e with
        | (m, e, accuracy) => roundWithAccuracy .binary64 .positive m e accuracy := rfl
    change packed (UnpackedFloat.sqrt .binary64 (unpacked x)) = _
    rw [hs, hsign]
    refine (congrArg packed hsqrt).trans ?_
    rw [hcore]
    refine (packed_eq_ofRatio (by decide) hstands hlarge).trans ?_
    have hplace : (-(t + 1074)).toNat = 0 := by omega
    rw [hplace, pow_zero, Nat.mul_one]
    rfl

theorem sqrt_of_units_eq_zero (hx : isFinite x = true) (hzero : units x = 0) :
    x.sqrt = ofCode (isNegative x) 0 := by
  change packed (UnpackedFloat.sqrt .binary64 (unpacked x)) = _
  obtain ⟨hs, -⟩ | ⟨m, e, hm, -, -, hunits⟩ := unpacked_cases hx
  · rw [hs]
    exact (packed_zero _).trans (by rw [isMinus_signOf])
  · refine absurd (hunits.symm.trans hzero) ?_
    positivity

theorem Nonneg.sqrt (hx : Nonneg x) : Nonneg x.sqrt := by
  obtain hfinite | rfl := hx.cases
  · by_cases hzero : units x = 0
    · rw [sqrt_of_units_eq_zero hfinite hzero, hx.sign, ← ofRatio_zero false 1]
      exact nonneg_ofRatio _ _
    · obtain ⟨v, p, j, -, -, -, h⟩ := exists_sqrt_eq hfinite hx.sign hzero
      rw [h]
      exact nonneg_ofRatio _ _
  · rw [sqrt_infinity]
    exact nonneg_infinity

theorem Nonneg.two_pow_le_sqrt (hx : Nonneg x) (hk : k ≤ rangeExponent)
    (h : 2 ^ k * 2 ^ k ≤ units x * unitsPerOne) : 2 ^ k ≤ units x.sqrt := by
  obtain hfinite | rfl := hx.cases
  · have hpos : units x ≠ 0 := by
      intro hzero
      rw [hzero, Nat.zero_mul, ← pow_add] at h
      exact absurd h (Nat.not_le_of_lt (Nat.two_pow_pos _))
    obtain ⟨v, p, j, -, hv, hunits, hsqrt⟩ := exists_sqrt_eq hfinite hx.sign hpos
    have hroot : 2 ^ k ≤ v.sqrt * 2 ^ p := by
      obtain hle | hlt := Nat.le_total k p
      · have hone : 1 ≤ v.sqrt := Nat.le_sqrt.mpr (Nat.pos_of_ne_zero hv)
        calc 2 ^ k
          _ ≤ 2 ^ p := Nat.pow_le_pow_right (by decide) hle
          _ ≤ v.sqrt * 2 ^ p := Nat.le_mul_of_pos_left _ hone
      · have hsplit : 2 ^ k = 2 ^ (k - p) * 2 ^ p := by rw [← pow_add, Nat.sub_add_cancel hlt]
        rw [hunits, hsplit, Nat.mul_mul_mul_comm] at h
        rw [hsplit]
        refine Nat.mul_le_mul_right _ (Nat.le_sqrt.mpr ?_)
        exact Nat.le_of_mul_le_mul_right h (by positivity)
    rw [hsqrt]
    refine two_pow_le_ofRatio (Nat.mul_pos (by decide) unitsPerOne_pos) hk ?_
    rw [← Nat.mul_assoc]
    refine Nat.mul_le_mul_right _ ?_
    calc 2 ^ k * 4
      _ ≤ v.sqrt * 2 ^ p * 4 := Nat.mul_le_mul_right _ hroot
      _ = 4 * v.sqrt * 2 ^ p := by ring
      _ ≤ (4 * v.sqrt + j) * 2 ^ p := Nat.mul_le_mul_right _ (Nat.le_add_right _ _)
  · rw [sqrt_infinity, units_infinity]
    exact Nat.pow_le_pow_right (by decide) hk

/-- The root of a number from a power of two on. -/
theorem Nonneg.two_pow_le_sqrt_of_le (hx : Nonneg x) (hk : k ≤ rangeExponent)
    (hb : 2 ^ b ≤ units x) (hkb : 2 * k ≤ b + 1074) : 2 ^ k ≤ units x.sqrt := by
  obtain ⟨p, hp, hone⟩ := exists_unitsPerOne
  refine hx.two_pow_le_sqrt hk ?_
  rw [hone]
  calc 2 ^ k * 2 ^ k
    _ ≤ 2 ^ (b + p) := two_pow_mul_le (by omega)
    _ ≤ 2 ^ b * 2 ^ p := le_two_pow_mul le_rfl
    _ ≤ units x * 2 ^ p := Nat.mul_le_mul_right _ hb

theorem Nonneg.isFinite_sqrt (hx : Nonneg x) (hfinite : isFinite x = true) :
    isFinite x.sqrt = true := by
  by_cases hzero : units x = 0
  · rw [sqrt_of_units_eq_zero hfinite hzero, hx.sign]
    decide +kernel
  · obtain ⟨v, p, j, hj, hv, hunits, hsqrt⟩ := exists_sqrt_eq hfinite hx.sign hzero
    have hone : 1 ≤ v.sqrt := Nat.le_sqrt.mpr (Nat.pos_of_ne_zero hv)
    have hrange : rangeExponent = 2098 := rfl
    obtain ⟨a, ha⟩ : ∃ a : ℕ, a = 1586 := ⟨_, rfl⟩
    have hpow : 2 ^ rangeExponent * unitsPerOne = 2 ^ (a + a) := pow_mul_unitsPerOne (by omega)
    have hroot : v.sqrt * 2 ^ p ≤ 2 ^ a := by
      refine Nat.mul_self_le_mul_self_iff.mp ?_
      calc v.sqrt * 2 ^ p * (v.sqrt * 2 ^ p)
        _ = v.sqrt * v.sqrt * (2 ^ p * 2 ^ p) := Nat.mul_mul_mul_comm ..
        _ ≤ v * (2 ^ p * 2 ^ p) := Nat.mul_le_mul_right _ (Nat.sqrt_le v)
        _ = units x * unitsPerOne := hunits.symm
        _ ≤ 2 ^ rangeExponent * unitsPerOne := Nat.mul_le_mul_right _ (units_le_two_pow hx.code_le)
        _ = 2 ^ a * 2 ^ a := by rw [hpow, pow_add]
    have hquarters : (4 * v.sqrt + j) * 2 ^ p ≤ 1 * 2 ^ (a + 1) * 4 := by
      calc (4 * v.sqrt + j) * 2 ^ p
        _ ≤ 8 * v.sqrt * 2 ^ p := Nat.mul_le_mul_right _ (by omega)
        _ = 8 * (v.sqrt * 2 ^ p) := Nat.mul_assoc ..
        _ ≤ 8 * 2 ^ a := Nat.mul_le_mul_left _ hroot
        _ = 1 * 2 ^ (a + 1) * 4 := by ring
    rw [hsqrt]
    refine isFinite_of_units_le (k := a + 1) (by omega) ?_
    rw [← Nat.one_mul (2 ^ (a + 1))]
    refine units_ofRatio_le (Nat.mul_pos (by decide) unitsPerOne_pos) (by decide) ?_
    rw [← Nat.mul_assoc]
    exact Nat.mul_le_mul_right _ hquarters

/-! ### Quotients by counts -/

theorem nonneg_ofNat (n : ℕ) : Nonneg (Float.ofNat n) := by
  rw [ofNat_eq]
  exact nonneg_ofRatio n 1

theorem unitsPerOne_le_units_ofNat (hn : 0 < n) : unitsPerOne ≤ units (Float.ofNat n) := by
  have hrange : rangeExponent = 2098 := rfl
  obtain ⟨p, hp, hone⟩ := exists_unitsPerOne
  rw [ofNat_eq, hone]
  refine two_pow_le_ofRatio Nat.one_pos (by omega) ?_
  rw [Nat.mul_one, ← hone]
  exact Nat.le_mul_of_pos_left _ hn

/-- A count that fits into a significand is a double. -/
theorem ofNat_of_le (hn : n ≤ 2 ^ 53) :
    isFinite (Float.ofNat n) = true ∧ units (Float.ofNat n) = n * unitsPerOne := by
  have hrange : rangeExponent = 2098 := rfl
  obtain ⟨p, hp, hone⟩ := exists_unitsPerOne
  obtain ⟨c, hc⟩ := exists_unitsOfCode_eq hn p
  have hlt : c < infinityCode := by
    by_contra hle
    have hinfinity := unitsOfCode_mono (Nat.le_of_not_lt hle)
    rw [unitsOfCode_infinityCode, hc] at hinfinity
    have hpow : 2 ^ rangeExponent ≤ 2 ^ (53 + p) :=
      (hinfinity.trans (Nat.mul_le_mul_right _ hn)).trans_eq (pow_add 2 53 p).symm
    exact absurd ((Nat.pow_le_pow_iff_right (by decide)).mp hpow) (by omega)
  have hcode : nearestCode n 1 = c :=
    nearestCode_eq Nat.one_pos hlt (by rw [hc, hone, Nat.mul_one])
  rw [ofNat_eq, units_ofRatio, hcode, hc, hone]
  refine ⟨decide_eq_true ?_, rfl⟩
  rwa [ofRatio, hcode, code_ofCode _ hlt.le]

/-- A quotient of numbers that are not negative is infinite only with its numerator. -/
theorem Nonneg.div_cases (hx : Nonneg x) (hn : 0 < n) (hn' : n ≤ 2 ^ 53) :
    x / Float.ofNat n = ofRatio false (units x) (n * unitsPerOne) ∨
      x / Float.ofNat n = infinity ∧ x = infinity := by
  obtain ⟨hfinite, hunits⟩ := ofNat_of_le hn'
  have hsign := (nonneg_ofNat n).sign
  obtain hx' | rfl := hx.cases
  · have hpos : units (Float.ofNat n) ≠ 0 := by
      rw [hunits]
      exact (Nat.mul_pos hn unitsPerOne_pos).ne'
    refine .inl ?_
    rw [div_eq hx' hfinite hpos, hx.sign, hsign, hunits, bne_self_eq_false]
  · exact .inr ⟨infinity_div hfinite hsign, rfl⟩

theorem Nonneg.div (hx : Nonneg x) (hn : 0 < n) (hn' : n ≤ 2 ^ 53) :
    Nonneg (x / Float.ofNat n) := by
  obtain h | ⟨h, -⟩ := hx.div_cases hn hn'
  · rw [h]
    exact nonneg_ofRatio _ _
  · rw [h]
    exact nonneg_infinity

theorem Nonneg.two_pow_le_div (hx : Nonneg x) (hn : 0 < n) (hn' : n ≤ 2 ^ 53)
    (hk : k ≤ rangeExponent) (h : 2 ^ k * n ≤ units x) : 2 ^ k ≤ units (x / Float.ofNat n) := by
  obtain hdiv | ⟨hdiv, -⟩ := hx.div_cases hn hn'
  · rw [hdiv]
    refine two_pow_le_ofRatio (Nat.mul_pos hn unitsPerOne_pos) hk ?_
    rw [← Nat.mul_assoc]
    exact Nat.mul_le_mul_right _ h
  · rw [hdiv, units_infinity]
    exact Nat.pow_le_pow_right (by decide) hk

theorem div_ofNat_le (hx : isFinite x = true) (hn : 0 < n) (hn' : n ≤ 2 ^ 53)
    (h : units x ≤ n * 2 ^ k) : units (x / Float.ofNat n) ≤ 2 ^ k := by
  obtain ⟨-, hunits⟩ := ofNat_of_le hn'
  refine (nonneg_ofNat n).units_div_le hx ?_ ?_
  · rw [hunits]
    exact (Nat.mul_pos hn unitsPerOne_pos).ne'
  · rw [hunits, ← Nat.mul_assoc, Nat.mul_comm (2 ^ k)]
    exact Nat.mul_le_mul_right _ h

/-- A quotient by a whole number is not greater than its numerator. -/
theorem Nonneg.isFinite_div (hx : Nonneg x) (hfinite : isFinite x = true) (hn : 0 < n) :
    Nonneg (x / Float.ofNat n) ∧ isFinite (x / Float.ofNat n) = true := by
  have hle := unitsPerOne_le_units_ofNat hn
  obtain hn' | hn' := (nonneg_ofNat n).cases
  · have hpos : units (Float.ofNat n) ≠ 0 := (unitsPerOne_pos.trans_le hle).ne'
    rw [div_eq hfinite hn' hpos, hx.sign, (nonneg_ofNat n).sign, bne_self_eq_false]
    refine ⟨nonneg_ofRatio _ _, decide_eq_true ?_⟩
    refine (code_ofCode false (Nat.min_le_right _ _)).trans_lt ?_
    refine (nearestCode_le (Nat.pos_of_ne_zero hpos) ?_).trans_lt (code_lt hfinite)
    exact Nat.mul_le_mul_left _ hle
  · rw [hn', div_infinity hfinite, hx.sign, ← ofRatio_zero false 1]
    exact ⟨nonneg_ofRatio _ _, by rw [ofRatio_zero]; decide +kernel⟩

end

end WaveNotebook.Binary64
