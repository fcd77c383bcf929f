import Mathlib
import WaveNotebook.Proofs.Number.Binary64

/-!
# Doubles as significands with exponents

The arithmetic of doubles is defined on their unpacked forms: a finite double that is not zero is a
sign, a significand and a binary exponent. The significand has 53 bits unless the exponent is the
least one. Such a form is packed into the code that is made of its exponent and its significand, and
one with too great an exponent into an infinity.
-/

namespace WaveNotebook.Binary64

open Float.Model UnpackedFloat

def unpacked (x : Float) : UnpackedFloat :=
  x.toModel.unpack

def packed (u : UnpackedFloat) : Float :=
  ⟨Float.Model.pack u⟩

theorem packed_unpacked (x : Float) : packed (unpacked x) = x :=
  Float.toBits_inj.mp (UInt64.toBitVec_inj.mp (pack_unpack_of_valid x.toModel.valid))

/-- The sign of a double that is negative or not. -/
def signOf (negative : Bool) : Sign :=
  if negative then .negative else .positive

def isMinus : Sign → Bool
  | .negative => true
  | .positive => false

@[simp]
theorem isMinus_signOf (negative : Bool) : isMinus (signOf negative) = negative := by
  cases negative <;> rfl

/-- The significands and exponents that rounding leaves. -/
structure Canonical (m : ℕ) (e : ℤ) : Prop where
  significand_lt : m < 2 ^ 53
  least : -1074 ≤ e
  normal : 2 ^ 52 ≤ m ∨ e = -1074

/-! ## Patterns -/

theorem toNat_exponent (x : Float) :
    (@unpackExponent .binary64 x.toModel.toBits.toBitVec).toNat = code x / fractionCount := by
  have hlt : x.toBits.toNat < 2 ^ 64 := x.toBits.toNat_lt
  rw [unpackExponent_def]
  change x.toBits.toNat >>> 52 % 2 ^ 11 = x.toBits.toNat % 2 ^ 63 / 2 ^ 52
  rw [Nat.shiftRight_eq_div_pow]
  omega

theorem toNat_mantissa (x : Float) :
    (@unpackMantissa .binary64 x.toModel.toBits.toBitVec).toNat = code x % fractionCount := by
  have hlt : x.toBits.toNat < 2 ^ 64 := x.toBits.toNat_lt
  rw [unpackMantissa_def]
  change x.toBits.toNat >>> 0 % 2 ^ 52 = x.toBits.toNat % 2 ^ 63 % 2 ^ 52
  rw [Nat.shiftRight_zero]
  omega

theorem ofBitVec_sign (x : Float) :
    Sign.ofBitVec (@unpackSign .binary64 x.toModel.toBits.toBitVec) = signOf (isNegative x) := by
  have hlt : x.toBits.toNat < 2 ^ 64 := x.toBits.toNat_lt
  have hbit : (@unpackSign .binary64 x.toModel.toBits.toBitVec).toNat =
      x.toBits.toNat / 2 ^ 63 := by
    rw [unpackSign_def]
    change x.toBits.toNat >>> 63 % 2 ^ 1 = _
    rw [Nat.shiftRight_eq_div_pow]
    omega
  have hzero : @unpackSign .binary64 x.toModel.toBits.toBitVec = 0#1 ↔
      x.toBits.toNat < 2 ^ 63 := by
    rw [← BitVec.toNat_inj, hbit]
    change x.toBits.toNat / 2 ^ 63 = 0 ↔ _
    omega
  have hnegative : isNegative x = decide (2 ^ 63 ≤ x.toBits.toNat) := rfl
  unfold Sign.ofBitVec signOf
  simp only [hzero, hnegative, decide_eq_true_eq]
  split <;> split <;> first | rfl | omega

/-! ## Unpacking -/

theorem toNat_append_one (v : BitVec 52) : (1#1 ++ v).toNat = 2 ^ 52 + v.toNat := by
  rw [BitVec.toNat_append, ← Nat.shiftLeft_add_eq_or_of_lt v.isLt]
  rfl

/-- The unpacked form of a finite double, and its magnitude in units. -/
theorem unpacked_cases {x : Float} (hx : isFinite x = true) :
    (unpacked x = .zero (signOf (isNegative x)) ∧ units x = 0) ∨
      ∃ m e h, unpacked x = .finite (signOf (isNegative x)) m e h ∧ Canonical m e ∧
        units x = m * 2 ^ (e + 1074).toNat := by
  have hexponent := toNat_exponent x
  have hmantissa := toNat_mantissa x
  have hcode := code_lt hx
  change code x < 2047 * 2 ^ 52 at hcode
  rw [← ofBitVec_sign]
  unfold unpacked units unitsOfCode Float.Model.unpack
  generalize x.toModel.toBits.toBitVec = b at *
  change (@unpackExponent .binary64 b).toNat = code x / 2 ^ 52 at hexponent
  change (@unpackMantissa .binary64 b).toNat = code x % 2 ^ 52 at hmantissa
  have hones : (-1#11).toNat = 2047 := rfl
  fun_cases UnpackedFloat.unpack .binary64 b with
  | case1 _ _ _ _ h _ =>
    have hexponent' : (@unpackExponent .binary64 b).toNat = 2047 := congrArg BitVec.toNat h
    omega
  | case2 _ _ h _ =>
    have hexponent' : (@unpackExponent .binary64 b).toNat = 2047 := congrArg BitVec.toNat h
    omega
  | case3 mantissa exponent _ _ _ h hzero =>
    have hcode : code x = 0 := by
      have hexponent' : (@unpackExponent .binary64 b).toNat = 0 := congrArg BitVec.toNat h
      have hmantissa' : (@unpackMantissa .binary64 b).toNat = 0 := congrArg BitVec.toNat hzero
      omega
    exact .inl ⟨rfl, by rw [hcode]; rfl⟩
  | case4 mantissa exponent power _ _ _ h hzero =>
    have hexponent' : (@unpackExponent .binary64 b).toNat = 0 := congrArg BitVec.toNat h
    have hsmall : code x < 2 ^ 52 := by omega
    have hvalue : mantissa.toNat = code x := by
      change (@unpackMantissa .binary64 b).toNat = code x
      omega
    have hpower : power + 1 = -1074 := by
      change ((@unpackExponent .binary64 b).toNat : ℤ) - (1023 + 52) + 1 = -1074
      omega
    refine .inr ⟨_, _, _, rfl, ?_, ?_⟩
    · rw [hvalue, hpower]
      exact ⟨by omega, by omega, .inr rfl⟩
    · rw [hvalue, hpower]
      exact (if_pos hsmall).trans (Nat.mul_one _).symm
  | case5 mantissa exponent power _ _ h hzero =>
    have hexponent' : (@unpackExponent .binary64 b).toNat ≠ 0 := fun heq ↦
      hzero (BitVec.eq_of_toNat_eq heq)
    have hvalue : (1#1 ++ mantissa).toNat = 2 ^ 52 + code x % 2 ^ 52 :=
      (toNat_append_one mantissa).trans (congrArg (2 ^ 52 + ·) hmantissa)
    have hpower : power = code x / 2 ^ 52 - 1075 := by
      change ((@unpackExponent .binary64 b).toNat : ℤ) - (1023 + 52) = _
      omega
    have hplace : (power + 1074).toNat = code x / 2 ^ 52 - 1 := by omega
    refine .inr ⟨_, _, _, rfl, ?_, ?_⟩
    · rw [hvalue]
      exact ⟨by omega, by omega, .inl (by omega)⟩
    · have hlarge : ¬code x < 2 ^ 52 := by omega
      rw [hvalue, hplace]
      exact if_neg hlarge

theorem unpacked_of_units_eq_zero {x : Float} (hx : isFinite x = true) (h : units x = 0) :
    unpacked x = .zero (signOf (isNegative x)) := by
  obtain ⟨hx, -⟩ | ⟨m, e, hm, -, -, hunits⟩ := unpacked_cases hx
  · exact hx
  · rw [hunits] at h
    exact absurd h (Nat.mul_pos hm (Nat.two_pow_pos _)).ne'

/-- A double above zero is neither negative nor zero. -/
theorem units_of_pos {x : Float} (hx : isFinite x = true) (h : 0.0 < x) :
    isNegative x = false ∧ units x ≠ 0 := by
  have hzero : unpacked 0.0 = .zero (signOf (isNegative 0.0)) :=
    unpacked_of_units_eq_zero (by decide +kernel) (by decide +kernel)
  have hlt : UnpackedFloat.lt (unpacked 0.0) (unpacked x) = true := of_decide_eq_true h
  rw [hzero] at hlt
  obtain ⟨hx, -⟩ | ⟨m, e, hm, hx, -, hunits⟩ := unpacked_cases hx
  · rw [hx] at hlt
    exact absurd hlt Bool.false_ne_true
  · rw [hx] at hlt
    refine ⟨?_, ?_⟩
    · cases hsign : isNegative x with
      | false => rfl
      | true =>
        rw [hsign] at hlt
        exact absurd hlt Bool.false_ne_true
    · rw [hunits]
      exact (Nat.mul_pos hm (Nat.two_pow_pos _)).ne'

theorem unpacked_of_infinite {x : Float} (hx : code x = infinityCode) :
    unpacked x = .infinity (signOf (isNegative x)) := by
  have hexponent := toNat_exponent x
  have hmantissa := toNat_mantissa x
  have hones : @unpackExponent .binary64 x.toModel.toBits.toBitVec = -1#11 :=
    BitVec.eq_of_toNat_eq (hexponent.trans (by rw [hx]; rfl))
  have hzeros : @unpackMantissa .binary64 x.toModel.toBits.toBitVec = 0#52 :=
    BitVec.eq_of_toNat_eq (hmantissa.trans (by rw [hx]; rfl))
  rw [← ofBitVec_sign]
  unfold unpacked Float.Model.unpack UnpackedFloat.unpack
  dsimp only
  rw [if_pos hones, if_pos hzeros]

theorem unpacked_of_not_finite {x : Float} (hx : isFinite x = false) :
    unpacked x = .notANumber ∨ ∃ s, unpacked x = .infinity s := by
  have hexponent := toNat_exponent x
  have hcode : 2047 * 2 ^ 52 ≤ code x := Nat.le_of_not_lt (of_decide_eq_false hx)
  have hlt : code x < 2 ^ 63 := Nat.mod_lt _ (by decide)
  have hones : @unpackExponent .binary64 x.toModel.toBits.toBitVec = -1#11 := by
    refine BitVec.eq_of_toNat_eq (hexponent.trans ?_)
    change code x / 2 ^ 52 = 2047
    omega
  unfold unpacked Float.Model.unpack UnpackedFloat.unpack
  dsimp only
  rw [if_pos hones]
  split
  · exact .inr ⟨_, rfl⟩
  · exact .inl rfl

/-! ## Packing -/

/-- Patterns that do not stand for what is not a number are kept. -/
theorem toBits_ofBits {bits : UInt64} (h : bits.toNat % signPlace ≤ infinityCode) :
    (Float.ofBits bits).toBits = bits := by
  have hinfinity : infinityCode = 2047 * 2 ^ 52 := rfl
  have hsign : signPlace = 2 ^ 63 := rfl
  have hlt : bits.toNat < 2 ^ 64 := bits.toNat_lt
  rw [hinfinity, hsign] at h
  have hvalid : Format.binary64.Valid bits.toBitVec := by
    refine ⟨fun hexponent hfraction ↦ absurd ?_ hfraction⟩
    have hones : bits.toNat >>> 52 % 2 ^ 11 = 2047 := by
      have hexponent' := congrArg BitVec.toNat hexponent
      rw [unpackExponent_def] at hexponent'
      exact hexponent'
    refine BitVec.eq_of_toNat_eq ?_
    rw [unpackMantissa_def]
    change bits.toNat >>> 0 % 2 ^ 52 = 0
    rw [Nat.shiftRight_eq_div_pow] at hones
    rw [Nat.shiftRight_zero]
    omega
  exact UInt64.toBitVec_inj.mp (pack_unpack_of_valid hvalid)

/-- A code that is not above that of infinity is the code of a double of either sign. -/
theorem toBits_ofCode (negative : Bool) {c : ℕ} (hc : c ≤ infinityCode) :
    (ofCode negative c).toBits.toNat = if negative then signPlace + c else c := by
  have hinfinity : infinityCode = 2047 * 2 ^ 52 := rfl
  have hsign : signPlace = 2 ^ 63 := rfl
  have hpattern : (UInt64.ofNat (if negative then signPlace + c else c)).toNat =
      if negative then signPlace + c else c := by
    rw [UInt64.toNat_ofNat', hsign]
    refine Nat.mod_eq_of_lt ?_
    split <;> omega
  have hmod : (if negative then signPlace + c else c) % signPlace ≤ infinityCode := by
    rw [hsign]
    split <;> omega
  rw [ofCode, toBits_ofBits (by rwa [hpattern]), hpattern]

theorem code_ofCode (negative : Bool) {c : ℕ} (hc : c ≤ infinityCode) :
    code (ofCode negative c) = c := by
  have hinfinity : infinityCode = 2047 * 2 ^ 52 := rfl
  have hsign : signPlace = 2 ^ 63 := rfl
  rw [code, toBits_ofCode negative hc, hsign]
  split <;> omega

theorem isNegative_ofCode (negative : Bool) {c : ℕ} (hc : c ≤ infinityCode) :
    isNegative (ofCode negative c) = negative := by
  have hinfinity : infinityCode = 2047 * 2 ^ 52 := rfl
  have hsign : signPlace = 2 ^ 63 := rfl
  rw [isNegative, toBits_ofCode negative hc, hsign]
  cases negative <;> simp; omega

/-- A sign, an exponent and a fraction make the code of a double. -/
theorem packed_of_components {u : UnpackedFloat} {s : Sign} (exponent : BitVec 11)
    (fraction : BitVec 52)
    (h : UnpackedFloat.pack .binary64 u = packComponents .binary64 s exponent fraction) :
    packed u = ofCode (isMinus s) (exponent.toNat * fractionCount + fraction.toNat) := by
  have hbits : (packed u).toModel.toBits.toBitVec = packComponents .binary64 s exponent fraction :=
    h
  have hexponent := toNat_exponent (packed u)
  have hmantissa := toNat_mantissa (packed u)
  have hsign := ofBitVec_sign (packed u)
  rw [hbits, unpackExponent_packComponents] at hexponent
  rw [hbits, unpackMantissa_packComponents] at hmantissa
  rw [hbits, unpackSign_packComponents] at hsign
  have hminus : isMinus s = isNegative (packed u) := by
    rw [← isMinus_signOf (isNegative (packed u)), ← hsign]
    cases s <;> rfl
  rw [hexponent, hmantissa, Nat.div_add_mod', hminus, ofCode_code]

theorem packed_zero (s : Sign) : packed (.zero s) = ofCode (isMinus s) 0 :=
  packed_of_components 0#11 0#52 rfl

theorem packed_infinity (s : Sign) : packed (.infinity s) = ofCode (isMinus s) infinityCode :=
  packed_of_components (-1#11) 0#52 rfl

theorem isFinite_packed_infinity (s : Sign) : isFinite (packed (.infinity s)) = false := by
  rw [packed_infinity, isFinite, code_ofCode _ le_rfl]
  exact decide_eq_false (Nat.lt_irrefl _)

theorem isFinite_packed_notANumber : isFinite (packed .notANumber) = false := by
  decide +kernel

/-- The code of a significand and an exponent; too great an exponent makes an infinity. -/
theorem packed_finite {s : Sign} {m : ℕ} {e : ℤ} {h : 0 < m} (hcanonical : Canonical m e) :
    packed (.finite s m e h) =
      ofCode (isMinus s) (min ((e + 1074).toNat * fractionCount + m) infinityCode) := by
  have hlt := hcanonical.significand_lt
  have hleast := hcanonical.least
  have hpack : UnpackedFloat.pack .binary64 (.finite s m e h) =
      if 2048 ≤ (e + 1023 + 52).toNat + 1 then packedInfinity .binary64 s
      else if m.log2 + 1 = 53 then
        packComponents .binary64 s (BitVec.ofNat 11 (e + 1023 + 52).toNat) (BitVec.ofNat 52 m)
      else packComponents .binary64 s 0#11 (BitVec.ofNat 52 m) := rfl
  have hinfinity : infinityCode = 2047 * 2 ^ 52 := rfl
  have hfraction : fractionCount = 2 ^ 52 := rfl
  split at hpack
  · have hlarge : infinityCode ≤ (e + 1074).toNat * fractionCount + m := by
      have hnormal := hcanonical.normal
      rw [hinfinity, hfraction]
      omega
    rw [Nat.min_eq_right hlarge, packed_of_components (-1#11) 0#52 hpack]
    rfl
  · have hlog : m.log2 < 53 := (Nat.log2_lt h.ne').mpr hlt
    split at hpack
    · have hle : 2 ^ 52 ≤ m := (Nat.le_log2 h.ne').mp (by omega)
      rw [packed_of_components _ _ hpack, BitVec.toNat_ofNat, BitVec.toNat_ofNat]
      refine congrArg (ofCode _) ?_
      rw [hinfinity, hfraction]
      omega
    · have hsmall : m < 2 ^ 52 := (Nat.log2_lt h.ne').mp (by omega)
      have hexponent := hcanonical.normal.resolve_left (Nat.not_le_of_lt hsmall)
      rw [packed_of_components _ _ hpack, BitVec.toNat_ofNat, hexponent]
      refine congrArg (ofCode _) ?_
      rw [hinfinity, hfraction]
      simp only [BitVec.toNat_ofNat]
      omega

/-- The code of a finite double is packed from its significand and its exponent. -/
theorem code_of_unpacked {x : Float} {s : Sign} {m : ℕ} {e : ℤ} {h : 0 < m}
    (hx : unpacked x = .finite s m e h) (hcanonical : Canonical m e) :
    code x = min ((e + 1074).toNat * fractionCount + m) infinityCode := by
  rw [← packed_unpacked x, hx, packed_finite hcanonical]
  exact code_ofCode _ (Nat.min_le_right _ _)

theorem neg_eq {x : Float} (hx : isFinite x = true) : -x = ofCode (!isNegative x) (code x) := by
  have hminus : ∀ b, isMinus (-signOf b) = !b := by
    intro b
    cases b <;> rfl
  change packed (unpacked x).neg = _
  obtain ⟨hunpacked, hunits⟩ | ⟨m, e, h, hunpacked, hcanonical, -⟩ := unpacked_cases hx
  · rw [hunpacked, unitsOfCode_eq_zero_iff.mp hunits]
    exact (packed_zero _).trans (by rw [hminus])
  · rw [code_of_unpacked hunpacked hcanonical, hunpacked]
    exact (packed_finite hcanonical).trans (by rw [hminus])

end WaveNotebook.Binary64
