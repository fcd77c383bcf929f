import WaveNotebook.Proofs.Kernel.Fourier

/-!
# The halves of the radix-2 transform

The transform of a list calls itself on the entries at even and at odd places, as long as there is
more than one entry. The length of an accepted list is a power of two, and so is that of each list
that is reached, one power less with each call. So every list that is taken apart has two halves of
the same length, their transforms have that length too and can be joined entry by entry, and no
call ends at an empty list.
-/

namespace WaveNotebook

namespace Fourier

variable {β : Type}

/-- The lists on which the transform is called while it transforms a list. -/
inductive Called (xs : List β) : List β → Prop
  | self : Called xs xs
  | evens {ys} (h : Called xs ys) (hlong : 1 < ys.length) : Called xs (evens ys)
  | odds {ys} (h : Called xs ys) (hlong : 1 < ys.length) : Called xs (odds ys)

/-! ## Places and lengths -/

theorem getElem?_evens (xs : List β) (i : ℕ) : (evens xs)[i]? = xs[2 * i]? := by
  induction xs using evens.induct generalizing i with
  | case1 => rfl
  | case2 x =>
    cases i with
    | zero => rfl
    | succ i => rfl
  | case3 x y xs ih =>
    cases i with
    | zero => rfl
    | succ i => exact ih i

theorem getElem?_odds (xs : List β) (i : ℕ) : (odds xs)[i]? = xs[2 * i + 1]? := by
  induction xs using odds.induct generalizing i with
  | case1 => rfl
  | case2 x => rfl
  | case3 x y xs ih =>
    cases i with
    | zero => rfl
    | succ i => exact ih i

/-- A call on more than one entry goes down by one power of two in both halves. -/
theorem length_halves {ys : List β} {p : ℕ} (h : ys.length = 2 ^ p) (hlong : 1 < ys.length) :
    ∃ q, ys.length = 2 * 2 ^ q ∧ (evens ys).length = 2 ^ q ∧ (odds ys).length = 2 ^ q := by
  cases p with
  | zero => omega
  | succ q =>
    have hdouble : ys.length = 2 * 2 ^ q := by rw [h, pow_succ']
    refine ⟨q, hdouble, ?_, ?_⟩
    · rw [length_evens]
      omega
    · rw [length_odds]
      omega

/-- Every call receives a power of two entries if the first one does. -/
theorem Called.exists_length_eq {xs ys : List β} (h : Called xs ys)
    (hlength : ∃ p, xs.length = 2 ^ p) : ∃ p, ys.length = 2 ^ p := by
  induction h with
  | self => exact hlength
  | evens _ hlong ih =>
    obtain ⟨p, hp⟩ := ih
    obtain ⟨q, -, heven, -⟩ := length_halves hp hlong
    exact ⟨q, heven⟩
  | odds _ hlong ih =>
    obtain ⟨p, hp⟩ := ih
    obtain ⟨q, -, -, hodd⟩ := length_halves hp hlong
    exact ⟨q, hodd⟩

variable [Add β] [Sub β] [Mul β] (twiddle : ℕ → ℕ → β)

theorem length_butterfly {n k : ℕ} {even odd : List β} (hn : n / 2 = k) (heven : even.length = k)
    (hodd : odd.length = k) : (butterfly twiddle n even odd).length = k + k := by
  simp only [butterfly, List.length_append, List.length_zipWith, List.length_map,
    List.length_range, hn, heven, hodd, Nat.min_self]

theorem length_radix2 {xs : List β} {p : ℕ} (h : xs.length = 2 ^ p) :
    (radix2 twiddle xs).length = 2 ^ p := by
  induction p generalizing xs with
  | zero => rw [radix2_of_length_le_one _ h.le, h]
  | succ p ih =>
    have hlong : 1 < xs.length := h ▸ Nat.one_lt_two_pow (Nat.succ_ne_zero p)
    obtain ⟨q, hdouble, heven, hodd⟩ := length_halves h hlong
    have hq : (2 : ℕ) ^ q = 2 ^ p := by
      rw [pow_succ'] at h
      omega
    rw [hq] at heven hodd hdouble
    rw [radix2_of_one_lt_length _ hlong,
      length_butterfly twiddle (by omega) (ih heven) (ih hodd), ← two_mul, ← pow_succ']

/-- What a call on more than one entry does: it takes an even number of entries apart into those at
even and those at odd places, equally many of them, and joins their transforms, which are as long
as there are turns for them. -/
structure Halves (ys : List β) : Prop where
  even : Even ys.length
  length_evens : (evens ys).length = ys.length / 2
  length_odds : (odds ys).length = ys.length / 2
  getElem?_evens : ∀ i : ℕ, (evens ys)[i]? = ys[2 * i]?
  getElem?_odds : ∀ i : ℕ, (odds ys)[i]? = ys[2 * i + 1]?
  radix2_eq : radix2 twiddle ys =
    butterfly twiddle ys.length (radix2 twiddle (evens ys)) (radix2 twiddle (odds ys))
  length_radix2_evens : (radix2 twiddle (evens ys)).length = ys.length / 2
  length_radix2_odds : (radix2 twiddle (odds ys)).length = ys.length / 2

theorem halves_of_length {ys : List β} (h : ∃ p, ys.length = 2 ^ p) (hlong : 1 < ys.length) :
    Halves twiddle ys := by
  obtain ⟨p, hp⟩ := h
  obtain ⟨q, hdouble, heven, hodd⟩ := length_halves hp hlong
  have hhalf : ys.length / 2 = 2 ^ q := by omega
  exact {
    even := ⟨2 ^ q, by omega⟩
    length_evens := by rw [heven, hhalf]
    length_odds := by rw [hodd, hhalf]
    getElem?_evens := Fourier.getElem?_evens ys
    getElem?_odds := Fourier.getElem?_odds ys
    radix2_eq := radix2_of_one_lt_length twiddle hlong
    length_radix2_evens := by rw [length_radix2 twiddle heven, hhalf]
    length_radix2_odds := by rw [length_radix2 twiddle hodd, hhalf] }

/-- The test of the bits accepts the powers of two and no other integer. While an accepted list is
transformed, every call on more than one entry is one on two halves of equal length, and every
other call is one on a single entry. -/
theorem called_halves_or_single :
    (∀ n : ℤ, isPowerOfTwo n = true ↔ ∃ k : ℕ, n = 2 ^ k) ∧
      ∀ xs zs : List β, transform twiddle xs = .ok zs → radix2 twiddle xs = zs ∧
        ∀ ys, Called xs ys → (1 < ys.length → Halves twiddle ys) ∧
          (ys.length ≤ 1 → ∃ y, ys = [y] ∧ radix2 twiddle ys = [y]) := by
  refine ⟨isPowerOfTwo_iff, fun xs zs h ↦ ?_⟩
  obtain ⟨hlength, hresult⟩ := (transform_eq_ok_iff twiddle xs zs).mp h
  refine ⟨hresult, fun ys hcalled ↦ ?_⟩
  have hpower := hcalled.exists_length_eq hlength
  refine ⟨halves_of_length twiddle hpower, fun hshort ↦ ?_⟩
  obtain ⟨p, hp⟩ := hpower
  have hpos : 0 < 2 ^ p := Nat.two_pow_pos p
  obtain ⟨y, rfl⟩ := List.length_eq_one_iff.mp (show ys.length = 1 by omega)
  exact ⟨y, rfl, radix2_of_length_le_one twiddle hshort⟩

/-- A call in the second half, which is taken apart once more. -/
theorem called_halves_four :
    transform (fun _ _ ↦ (1 : ℤ)) [1, 2, 3, 4] = .ok [10, -4, -2, 0] ∧
      Called [1, 2, 3, 4] [(2 : ℤ), 4] ∧ Halves (fun _ _ ↦ (1 : ℤ)) [2, 4] := by
  have haccepted : transform (fun _ _ ↦ (1 : ℤ)) [1, 2, 3, 4] = .ok [10, -4, -2, 0] := by
    refine (transform_eq_ok_iff _ _ _).mpr ⟨⟨2, rfl⟩, ?_⟩
    simp [radix2, butterfly, evens, odds]
  have hcalled : Called [1, 2, 3, 4] [(2 : ℤ), 4] := .odds .self (by decide)
  exact ⟨haccepted, hcalled,
    (((called_halves_or_single _).2 _ _ haccepted).2 _ hcalled).1 (by decide)⟩

end Fourier

end WaveNotebook
