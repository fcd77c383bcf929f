import Mathlib
import WaveNotebook.Number.Binary64

/-!
# Codes of doubles

A double is its bit pattern, since only one pattern stands for what is not a number. So a double
is determined by its sign and its code, and a finite one is equal to itself as a number. The two
zeros are the only different doubles that are the same number. The code of a quotient depends on
its value only, and a quotient that is the magnitude of a finite double has the code of this
double: rounding leaves alone what needs none.
-/

namespace WaveNotebook.Binary64

/-! ## Patterns -/

/-- A double is its sign and its code. -/
theorem ofCode_code (x : Float) : ofCode (isNegative x) (code x) = x := by
  have hlt : x.toBits.toNat < 2 * signPlace := x.toBits.toNat_lt
  have hpattern : (if isNegative x then signPlace + code x else code x) = x.toBits.toNat := by
    unfold code
    split
    · rename_i h
      have hle : signPlace ≤ x.toBits.toNat := of_decide_eq_true h
      rw [Nat.mod_eq_sub_mod hle, Nat.mod_eq_of_lt (by omega), Nat.add_sub_of_le hle]
    · rename_i h
      exact Nat.mod_eq_of_lt (Nat.lt_of_not_le fun hle ↦ h (decide_eq_true hle))
  rw [ofCode, hpattern, UInt64.ofNat_toNat, Float.ofBits_toBits]

theorem code_lt {x : Float} (hx : isFinite x = true) : code x < infinityCode :=
  of_decide_eq_true hx

/-- A finite double is equal to itself. -/
theorem beq_self {x : Float} (hx : isFinite x = true) : (x == x) = true := by
  have hnan : isFinite .nan = false := by decide +kernel
  refine Float.beq_self_iff.mpr ?_
  rintro rfl
  exact Bool.false_ne_true (hnan.symm.trans hx)

theorem code_ofCode_zero (negative : Bool) : code (ofCode negative 0) = 0 := by
  have key : ∀ negative, code (ofCode negative 0) = 0 := by decide +kernel
  exact key negative

/-- The same number: the same double, or both are zero. -/
def Same (x y : Float) : Prop :=
  x = y ∨ code x = 0 ∧ code y = 0

theorem Same.symm {x y : Float} (h : Same x y) : Same y x :=
  h.imp Eq.symm And.symm

theorem Same.trans {x y z : Float} (hxy : Same x y) (hyz : Same y z) : Same x z := by
  obtain rfl | ⟨hx, hy⟩ := hxy
  · exact hyz
  · obtain rfl | ⟨-, hz⟩ := hyz
    · exact .inr ⟨hx, hy⟩
    · exact .inr ⟨hx, hz⟩

/-- The two zeros are equal, whatever their signs. -/
theorem beq_of_code_eq_zero {x y : Float} (hx : code x = 0) (hy : code y = 0) :
    (x == y) = true := by
  have key : ∀ a b : Bool, (ofCode a 0 == ofCode b 0) = true := by decide +kernel
  have h := key (isNegative x) (isNegative y)
  rwa [← hx, ofCode_code, hx, ← hy, ofCode_code] at h

theorem Same.beq {x y : Float} (h : Same x y) (hy : isFinite y = true) : (x == y) = true := by
  obtain rfl | ⟨hx, hzero⟩ := h
  · exact beq_self hy
  · exact beq_of_code_eq_zero hx hzero

/-! ## Rounding -/

theorem unitsPerOne_pos : 0 < unitsPerOne := by
  decide +kernel

/-- A quotient without a remainder is not rounded. -/
theorem divNearest_mul (q : ℕ) {d : ℕ} (hd : 0 < d) : divNearest (q * d) d = q := by
  unfold divNearest
  rw [Nat.mul_mod_left, Nat.mul_div_cancel q hd]
  exact if_pos hd

theorem divNearest_mul_mul (a b : ℕ) {k : ℕ} (hk : 0 < k) :
    divNearest (a * k) (b * k) = divNearest a b := by
  have hlt : ∀ m n, m * k < n * k ↔ m < n := fun m n ↦ Nat.mul_lt_mul_right hk
  unfold divNearest
  dsimp only
  rw [Nat.mul_div_mul_right a b hk, Nat.mul_mod_mul_right, ← Nat.mul_assoc]
  simp only [hlt]

/-- A code depends on the value of the quotient only. -/
theorem nearestCode_mul_mul (a b : ℕ) {k : ℕ} (hk : 0 < k) :
    nearestCode (a * k) (b * k) = nearestCode a b := by
  unfold nearestCode
  dsimp only
  rw [Nat.mul_right_comm a k, Nat.mul_div_mul_right _ b hk, Nat.mul_right_comm b k,
    divNearest_mul_mul _ _ hk]

theorem nearestCode_congr {a b c d : ℕ} (hb : 0 < b) (hd : 0 < d) (h : a * d = c * b) :
    nearestCode a b = nearestCode c d := by
  rw [← nearestCode_mul_mul a b hd, h, Nat.mul_comm b d, nearestCode_mul_mul c d hb]

/-- The significand and the exponent of a magnitude, which its code is the sum of. -/
theorem exists_significand (c : ℕ) : ∃ m p, unitsOfCode c = m * 2 ^ p ∧
    p * fractionCount + m = c ∧ (unitsOfCode c).log2 - 52 = p := by
  by_cases hsubnormal : c < fractionCount
  · have hunits : unitsOfCode c = c := if_pos hsubnormal
    have hlog : c.log2 < 53 := by
      by_cases hzero : c = 0
      · rw [hzero]
        decide
      · exact Nat.lt_succ_of_lt ((Nat.log2_lt hzero).mpr hsubnormal)
    refine ⟨c, 0, ?_, ?_, ?_⟩
    · rw [hunits, pow_zero, Nat.mul_one]
    · rw [Nat.zero_mul, Nat.zero_add]
    · rw [hunits]
      omega
  · have hmod : c % fractionCount < 2 ^ 52 := Nat.mod_lt c (by decide)
    have hpow : 0 < 2 ^ (c / fractionCount - 1) := Nat.two_pow_pos _
    have hunits : unitsOfCode c = (2 ^ 52 + c % fractionCount) * 2 ^ (c / fractionCount - 1) :=
      if_neg hsubnormal
    have hlog : (unitsOfCode c).log2 = 52 + (c / fractionCount - 1) := by
      rw [hunits, Nat.log2_eq_iff (Nat.mul_ne_zero (by omega) hpow.ne'), Nat.add_right_comm,
        pow_add 2 52, pow_add 2 (52 + 1)]
      exact ⟨Nat.mul_le_mul_right _ (by omega), Nat.mul_lt_mul_of_pos_right (by omega) hpow⟩
    have hdiv : 1 ≤ c / fractionCount := Nat.div_pos (Nat.le_of_not_lt hsubnormal) (by decide)
    refine ⟨2 ^ 52 + c % fractionCount, c / fractionCount - 1, hunits, ?_, ?_⟩
    · calc
        _ = (c / fractionCount - 1 + 1) * fractionCount + c % fractionCount := by
          rw [Nat.add_mul, Nat.one_mul, Nat.add_assoc]
          rfl
        _ = c := by rw [Nat.sub_add_cancel hdiv, Nat.div_add_mod']
    · rw [hlog, Nat.add_sub_cancel_left]

theorem unitsOfCode_eq_zero_iff {c : ℕ} : unitsOfCode c = 0 ↔ c = 0 := by
  constructor
  · intro h
    obtain ⟨m, p, hunits, hcode, hlog⟩ := exists_significand c
    have hm : m = 0 := (Nat.mul_eq_zero.mp (hunits.symm.trans h)).resolve_right (by positivity)
    have hp : p = 0 := by
      rw [h] at hlog
      exact hlog.symm
    rw [← hcode, hm, hp, Nat.zero_mul]
  · rintro rfl
    rfl

/-- The magnitude of a double is the nearest double to itself. -/
theorem nearestCode_unitsOfCode {c : ℕ} (hc : c ≤ infinityCode) :
    nearestCode (unitsOfCode c) unitsPerOne = c := by
  obtain ⟨m, p, hunits, hcode, hlog⟩ := exists_significand c
  unfold nearestCode
  dsimp only
  rw [Nat.mul_div_cancel _ unitsPerOne_pos, hlog, Nat.mul_comm unitsPerOne,
    divNearest_mul_mul _ _ unitsPerOne_pos, hunits]
  change min (p * fractionCount + divNearest (m * 2 ^ p) (2 ^ p)) infinityCode = c
  rw [divNearest_mul m (Nat.two_pow_pos p), hcode]
  exact Nat.min_eq_left hc

theorem nearestCode_eq {a b c : ℕ} (hb : 0 < b) (hc : c < infinityCode)
    (h : a * unitsPerOne = unitsOfCode c * b) : nearestCode a b = c :=
  (nearestCode_congr hb unitsPerOne_pos h).trans (nearestCode_unitsOfCode hc.le)

/-- An integral double is read from its integral part, but as a positive zero if it is zero. -/
theorem same_truncate {x : Float} (hx : isInteger x = true) :
    Same (ofCode (truncate x < 0) (nearestCode (truncate x).natAbs 1)) x := by
  obtain ⟨hfinite, hmod⟩ := Bool.and_eq_true_iff.mp hx
  have hdiv : units x / unitsPerOne * unitsPerOne = units x :=
    Nat.div_mul_cancel (Nat.dvd_of_mod_eq_zero (beq_iff_eq.mp hmod))
  have htruncate : truncate x = if isNegative x then -((units x / unitsPerOne : ℕ) : ℤ)
    else (units x / unitsPerOne : ℕ) := rfl
  have hnat : (truncate x).natAbs = units x / unitsPerOne := by
    rw [htruncate]
    split
    · rw [Int.natAbs_neg, Int.natAbs_natCast]
    · rw [Int.natAbs_natCast]
  have hcode : nearestCode (truncate x).natAbs 1 = code x := by
    refine nearestCode_eq Nat.one_pos (code_lt hfinite) ?_
    rw [hnat, hdiv, Nat.mul_one]
    rfl
  rw [hcode]
  by_cases hzero : code x = 0
  · rw [hzero]
    exact .inr ⟨code_ofCode_zero _, hzero⟩
  · have hpos : 0 < units x / unitsPerOne := by
      refine Nat.pos_of_ne_zero fun h ↦ hzero (unitsOfCode_eq_zero_iff.mp ?_)
      rw [h, Nat.zero_mul] at hdiv
      exact hdiv.symm
    have hsign : decide (truncate x < 0) = isNegative x := by
      rw [htruncate]
      cases isNegative x with
      | true => exact decide_eq_true (by rw [if_pos rfl]; omega)
      | false => exact decide_eq_false (by rw [if_neg Bool.false_ne_true]; omega)
    rw [hsign, ofCode_code]
    exact .inl rfl

end WaveNotebook.Binary64
