import Mathlib.Algebra.Ring.Int.Defs
import WaveNotebook.Proofs.Grid.Sound
import WaveNotebook.Proofs.Number.Binary64

/-!
# Places and entries as data

A datum serves as an index if it is equal to an integer, and it serves as an entry if it is a
finite number. Reading an entry succeeds exactly if both indices are integers from zero on and
below the number of rows and of columns. Setting an entry asks for a finite number besides.
-/

namespace WaveNotebook

namespace Binary64

/-- A finite double in units, with its sign. -/
def signedUnits (x : Float) : Int :=
  if isNegative x then -(units x : Int) else units x

/-- A double is equal to an integer. -/
def Equals (x : Float) (n : Int) : Prop :=
  isFinite x = true ∧ signedUnits x = n * unitsPerOne

theorem natCast_eq_mul_iff {u d : Nat} (hd : 0 < d) (n : Int) :
    (u : Int) = n * d ↔ u % d = 0 ∧ ((u / d : Nat) : Int) = n := by
  constructor
  · intro h
    have hn : 0 ≤ n := by
      by_contra hneg
      have hlt : n * d < 0 := Int.mul_neg_of_neg_of_pos (by omega) (by omega)
      omega
    obtain ⟨m, rfl⟩ := Int.eq_ofNat_of_zero_le hn
    obtain rfl : u = m * d := by exact_mod_cast h
    exact ⟨Nat.mul_mod_left m d, by rw [Nat.mul_div_cancel m hd]⟩
  · rintro ⟨hmod, rfl⟩
    exact_mod_cast (Nat.div_mul_cancel (Nat.dvd_of_mod_eq_zero hmod)).symm

/-- A double is equal to an integer if it has no fraction and the integer is its integral part. -/
theorem equals_iff {x : Float} {n : Int} : Equals x n ↔ isInteger x = true ∧ truncate x = n := by
  unfold Equals isInteger truncate signedUnits
  rw [Bool.and_eq_true, beq_iff_eq, and_assoc]
  refine and_congr_right fun _ ↦ ?_
  dsimp only
  split
  · rw [neg_eq_iff_eq_neg, ← neg_mul, natCast_eq_mul_iff unitsPerOne_pos, neg_eq_iff_eq_neg]
    rfl
  · exact natCast_eq_mul_iff unitsPerOne_pos n

end Binary64

namespace Datum

/-- A datum is equal to an integer: as a number, as a truth value that counts as zero or one, or
as an array that has no dimensions. -/
inductive IsInteger : Datum → Int → Prop
  | integer (n : Int) : IsInteger (.integer n) n
  | number {x : Float} {n : Int} (h : Binary64.Equals x n) : IsInteger (.number x) n
  | bool (b : Bool) : IsInteger (.bool b) (if b then 1 else 0)
  | array {x : Float} {n : Int} (h : Binary64.Equals x n) : IsInteger (.array [] [x]) n

/-- A datum is a finite double, or an integer of at most 64 bits with the double nearest to it. -/
inductive IsEntry : Datum → Float → Prop
  | number {x : Float} (h : Binary64.isFinite x = true) : IsEntry (.number x) x
  | integer {n : Int} {x : Float} (hleast : -(Nat.pow 2 63 : Int) ≤ n)
    (hmost : n < (Nat.pow 2 64 : Int)) (h : Binary64.ofInt? n = some x)
    (hfinite : Binary64.isFinite x = true) : IsEntry (.integer n) x

theorem integralPart_eq_ok_iff {x : Float} {n : Int} :
    integralPart x = .ok n ↔ Binary64.isFinite x = true ∧ Binary64.truncate x = n := by
  unfold integralPart
  split
  · rename_i hnan
    have hinfinite : Binary64.isFinite x ≠ true := by
      unfold Binary64.isNaN at hnan
      unfold Binary64.isFinite
      simp only [ne_eq, decide_eq_true_eq] at hnan ⊢
      omega
    simp [hinfinite]
  · split
    · rename_i hfinite
      simp [hfinite]
    · rename_i hfinite
      simp [hfinite]

theorem integer?_number {x : Float} {n : Int} :
    (number x).integer? = .ok (some n) ↔ Binary64.Equals x n := by
  have hbind : (number x).integer? = integralPart x >>= fun n ↦
      return if Binary64.isInteger x then some n else none := rfl
  rw [hbind, bind_eq_ok_iff, Binary64.equals_iff]
  constructor
  · rintro ⟨m, hpart, hinteger⟩
    obtain ⟨-, rfl⟩ := integralPart_eq_ok_iff.mp hpart
    obtain ⟨hwhole, hsome⟩ := Option.ite_none_right_eq_some.mp (Except.ok.inj hinteger)
    exact ⟨hwhole, Option.some.inj hsome⟩
  · rintro ⟨hinteger, rfl⟩
    refine ⟨_, integralPart_eq_ok_iff.mpr ⟨(Bool.and_eq_true_iff.mp hinteger).1, rfl⟩, ?_⟩
    rw [if_pos hinteger]
    rfl

/-- The integer that a datum is found to be is the one that it is equal to. -/
theorem integer?_eq_ok_some_iff {d : Datum} {n : Int} :
    d.integer? = .ok (some n) ↔ d.IsInteger n := by
  constructor
  · intro h
    match d with
    | .integer _ =>
      cases h
      exact .integer _
    | .bool _ =>
      cases h
      exact .bool _
    | .number x => exact .number (integer?_number.mp h)
    | .array [] [x] => exact .array (integer?_number.mp h)
    | .text s =>
      have hbind : (text s).integer? = (text s).integerPart >>= fun _ ↦ return none := rfl
      rw [hbind, bind_eq_ok_iff] at h
      obtain ⟨_, -, hnone⟩ := h
      cases hnone
    | .array [] [] | .array [] (_ :: _ :: _) | .array (_ :: _) _ => cases h
    | .null | .list _ | .record _ | .object _ => cases h
  · intro h
    cases h with
    | integer n => rfl
    | number h => exact integer?_number.mpr h
    | bool b => rfl
    | array h => exact integer?_number.mpr h

theorem IsInteger.unique {d : Datum} {m n : Int} (hm : d.IsInteger m) (hn : d.IsInteger n) :
    m = n := by
  have heq := (integer?_eq_ok_some_iff.mpr hm).symm.trans (integer?_eq_ok_some_iff.mpr hn)
  exact Option.some.inj (Except.ok.inj heq)

theorem toFloat?_integer_eq_ok_some_iff {n : Int} {x : Float} :
    (integer n).toFloat? = .ok (some x) ↔ Binary64.ofInt? n = some x := by
  change some <$> doubleOf n = _ ↔ _
  unfold doubleOf
  cases Binary64.ofInt? n <;> simp

theorem IsEntry.isFinite {d : Datum} {x : Float} (h : d.IsEntry x) :
    Binary64.isFinite x = true := by
  cases h <;> assumption

theorem IsEntry.unique {d : Datum} {x y : Float} (hx : d.IsEntry x) (hy : d.IsEntry y) : x = y := by
  cases hx with
  | number =>
    cases hy with
    | number => rfl
  | integer _ _ h =>
    cases hy with
    | integer _ _ h' => exact Option.some.inj (h.symm.trans h')

end Datum

namespace Grid

/-- Two indices are integers in the range of a grid, from zero on. -/
def HasPlace (g : Grid Float) (row col : Datum) : Prop :=
  ∃ i j : Int, row.IsInteger i ∧ col.IsInteger j ∧ 0 ≤ i ∧ i < g.rows ∧ 0 ≤ j ∧ j < g.cols

variable {row col value : Datum}

theorem hasPlace_iff {g : Grid Float} : g.HasPlace row col ↔
    ∃ (i : Fin g.rows) (j : Fin g.cols), row.IsInteger (i : Nat) ∧ col.IsInteger (j : Nat) := by
  constructor
  · rintro ⟨i, j, hrow, hcol, hi, hi', hj, hj'⟩
    obtain ⟨m, rfl⟩ := Int.eq_ofNat_of_zero_le hi
    obtain ⟨n, rfl⟩ := Int.eq_ofNat_of_zero_le hj
    exact ⟨⟨m, Int.ofNat_lt.mp hi'⟩, ⟨n, Int.ofNat_lt.mp hj'⟩, hrow, hcol⟩
  · rintro ⟨i, j, hrow, hcol⟩
    exact ⟨i, j, hrow, hcol, by omega⟩

/-- Two indices stand for a place if they are equal to its row and its column. -/
theorem indexOf_eq_ok_iff {g : Grid Float} {i : Fin g.rows} {j : Fin g.cols} :
    g.indexOf row col = .ok (i, j) ↔ row.IsInteger (i : Nat) ∧ col.IsInteger (j : Nat) := by
  rw [← Datum.integer?_eq_ok_some_iff, ← Datum.integer?_eq_ok_some_iff]
  constructor
  · intro h
    have hyields := g.indexOf_yields row col
    rw [h] at hyields
    exact hyields.value
  · rintro ⟨hrow, hcol⟩
    have hrange : 0 ≤ ((i : Nat) : Int) ∧ ((i : Nat) : Int) < g.rows ∧ 0 ≤ ((j : Nat) : Int) ∧
        ((j : Nat) : Int) < g.cols := by
      omega
    unfold indexOf
    rw [hrow, hcol]
    change g.index _ _ = _
    rw [index, dif_pos hrange]
    rfl

theorem isEntry_iff {x : Float} :
    value.IsEntry x ↔ testable value = .ok () ∧ value.finite? = .ok (some x) := by
  rw [Datum.finite?_eq_ok_some_iff]
  constructor
  · intro h
    cases h with
    | number hfinite => exact ⟨rfl, rfl, hfinite⟩
    | integer hleast hmost h hfinite =>
      exact ⟨if_pos ⟨hleast, hmost⟩, Datum.toFloat?_integer_eq_ok_some_iff.mpr h, hfinite⟩
  · rintro ⟨htest, hfloat, hfinite⟩
    cases value with
    | number y =>
      cases hfloat
      exact .number hfinite
    | integer n =>
      change (if _ then Except.ok () else _) = _ at htest
      split at htest
      · rename_i hrange
        exact .integer hrange.1 hrange.2 (Datum.toFloat?_integer_eq_ok_some_iff.mp hfloat) hfinite
      · cases htest
    | _ => cases hfloat

theorem entryOf_eq_ok_iff {x : Float} : entryOf value = .ok x ↔ value.IsEntry x := by
  rw [isEntry_iff]
  constructor
  · intro h
    have hyields := entryOf_yields value
    rw [h] at hyields
    obtain ⟨_, htest, -⟩ := bind_eq_ok_iff.mp h
    exact ⟨htest, hyields.value.2⟩
  · rintro ⟨htest, hfinite⟩
    unfold entryOf
    rw [htest, hfinite]
    rfl

theorem get_eq_ok_iff {g : Grid Float} {x : Float} :
    g.get row col = .ok x ↔ ∃ (i : Fin g.rows) (j : Fin g.cols),
      row.IsInteger (i : Nat) ∧ col.IsInteger (j : Nat) ∧ g.entry i j = x := by
  have hbind : g.get row col = g.indexOf row col >>= fun p ↦ .ok (g.entry p.1 p.2) := rfl
  rw [hbind, bind_eq_ok_iff]
  constructor
  · rintro ⟨p, hp, hx⟩
    obtain ⟨hi, hj⟩ := indexOf_eq_ok_iff.mp hp
    exact ⟨p.1, p.2, hi, hj, Except.ok.inj hx⟩
  · rintro ⟨i, j, hi, hj, rfl⟩
    exact ⟨(i, j), indexOf_eq_ok_iff.mpr ⟨hi, hj⟩, rfl⟩

theorem set_eq_ok_iff {g g' : Grid Float} :
    g.set row col value = .ok g' ↔ ∃ (i : Fin g.rows) (j : Fin g.cols) (x : Float),
      row.IsInteger (i : Nat) ∧ col.IsInteger (j : Nat) ∧ value.IsEntry x ∧
        g' = g.replace i j x := by
  have hbind : g.set row col value = g.indexOf row col >>= fun p ↦
      entryOf value >>= fun x ↦ .ok (g.replace p.1 p.2 x) := rfl
  rw [hbind, bind_eq_ok_iff]
  constructor
  · rintro ⟨p, hp, hentry⟩
    obtain ⟨x, hx, hreplace⟩ := bind_eq_ok_iff.mp hentry
    obtain ⟨hi, hj⟩ := indexOf_eq_ok_iff.mp hp
    exact ⟨p.1, p.2, x, hi, hj, entryOf_eq_ok_iff.mp hx, (Except.ok.inj hreplace).symm⟩
  · rintro ⟨i, j, x, hi, hj, hx, rfl⟩
    exact ⟨(i, j), indexOf_eq_ok_iff.mpr ⟨hi, hj⟩,
      bind_eq_ok_iff.mpr ⟨x, entryOf_eq_ok_iff.mpr hx, rfl⟩⟩

theorem exists_get_eq_ok_iff {g : Grid Float} :
    (∃ x, g.get row col = .ok x) ↔ g.HasPlace row col := by
  rw [hasPlace_iff]
  constructor
  · rintro ⟨x, hx⟩
    obtain ⟨i, j, hrow, hcol, -⟩ := get_eq_ok_iff.mp hx
    exact ⟨i, j, hrow, hcol⟩
  · rintro ⟨i, j, hrow, hcol⟩
    exact ⟨_, get_eq_ok_iff.mpr ⟨i, j, hrow, hcol, rfl⟩⟩

theorem exists_set_eq_ok_iff {g : Grid Float} :
    (∃ g', g.set row col value = .ok g') ↔ g.HasPlace row col ∧ ∃ x, value.IsEntry x := by
  rw [hasPlace_iff]
  constructor
  · rintro ⟨g', hg'⟩
    obtain ⟨i, j, x, hrow, hcol, hx, -⟩ := set_eq_ok_iff.mp hg'
    exact ⟨⟨i, j, hrow, hcol⟩, x, hx⟩
  · rintro ⟨⟨i, j, hrow, hcol⟩, x, hx⟩
    exact ⟨_, set_eq_ok_iff.mpr ⟨i, j, x, hrow, hcol, hx, rfl⟩⟩

end Grid

end WaveNotebook
