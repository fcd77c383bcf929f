import WaveNotebook.Fault
import WaveNotebook.Kernel.Scalar

/-!
# The radix-2 Fourier transform

A transform of `n` values is put together from those of the values at even and
at odd places: the odd one, turned by the twiddle factors of `n`, is added to
the even one for the first half of the result and subtracted for the second. It
is written over any type with a sum, a difference and a product; complex numbers
in Cartesian form are the one that runs. A length that is not a power of two is
refused, so that the halves always have equal length.
-/

namespace WaveNotebook

/-- A complex number by its two coordinates. -/
structure Cartesian (α : Type) where
  re : α
  im : α

namespace Cartesian

variable {α : Type}

instance [Add α] : Add (Cartesian α) := ⟨fun z w => ⟨z.re + w.re, z.im + w.im⟩⟩

instance [Sub α] : Sub (Cartesian α) := ⟨fun z w => ⟨z.re - w.re, z.im - w.im⟩⟩

instance [Add α] [Sub α] [Mul α] : Mul (Cartesian α) :=
  ⟨fun z w => ⟨z.re * w.re - z.im * w.im, z.re * w.im + z.im * w.re⟩⟩

def ofReal [NatCast α] (x : α) : Cartesian α := ⟨x, ((0 : Nat) : α)⟩

/-- Whether a value that stands for no number is still equal to itself: only an infinite one
is. -/
def isUnbounded [FiniteTest α] [BEq α] (x : α) : Bool :=
  !isFinite x && x == x

/-- The distance from the origin, by way of the ratio of the coordinates, so that their squares
do not leave the range of the numbers. It is infinite if a coordinate is, whatever the other
one. -/
def abs [NatCast α] [Add α] [Mul α] [Div α] [Neg α] [LT α] [DecidableLT α] [BEq α]
    [Elementary α] [FiniteTest α] (z : Cartesian α) : α :=
  let a := magnitude z.re
  let b := magnitude z.im
  let (big, small) := if a < b then (b, a) else (a, b)
  if isUnbounded a then a
  else if isUnbounded b then b
  else if small == ((0 : Nat) : α) then big
  else
    let r := small / big
    big * Elementary.sqrt (((1 : Nat) : α) + r * r)

/-- The number of modulus one at the angle `-2πk/n`, which is a positive zero for `k = 0`. -/
def twiddle [NatCast α] [Sub α] [Mul α] [Div α] [Elementary α] (n k : Nat) : Cartesian α :=
  let angle := ((0 : Nat) : α) - ((2 : Nat) : α) * Elementary.pi * (k : α) / (n : α)
  ⟨Elementary.cos angle, Elementary.sin angle⟩

end Cartesian

namespace Fourier

/-- Exactly one bit is set: then the number below has all lower bits and not this one. -/
def isPowerOfTwo (n : Int) : Bool :=
  0 < n && n.toNat &&& (n.toNat - 1) == 0

section

variable {β : Type}

/-- The values at even places. -/
def evens : List β → List β
  | [] => []
  | [x] => [x]
  | x :: _ :: xs => x :: evens xs

/-- The values at odd places. -/
def odds : List β → List β
  | [] => []
  | [_] => []
  | _ :: y :: xs => y :: odds xs

theorem length_evens (xs : List β) : (evens xs).length = (xs.length + 1) / 2 := by
  induction xs using evens.induct with
  | case1 => simp [evens]
  | case2 => simp [evens]
  | case3 x y xs ih =>
    simp only [evens, List.length_cons, ih]
    omega

theorem length_odds (xs : List β) : (odds xs).length = xs.length / 2 := by
  induction xs using odds.induct with
  | case1 => simp [odds]
  | case2 => simp [odds]
  | case3 x y xs ih =>
    simp only [odds, List.length_cons, ih]
    omega

/-- Joins the transforms of the values at even and at odd places of `n` values. -/
def butterfly [Add β] [Sub β] [Mul β] (twiddle : Nat → Nat → β) (n : Nat) (even odd : List β) :
    List β :=
  let turned := List.zipWith (· * ·) ((List.range (n / 2)).map (twiddle n)) odd
  List.zipWith (· + ·) even turned ++ List.zipWith (· - ·) even turned

/-- The transform of a list whose length is a power of two. -/
def radix2 [Add β] [Sub β] [Mul β] (twiddle : Nat → Nat → β) (xs : List β) : List β :=
  if xs.length ≤ 1 then xs
  else butterfly twiddle xs.length (radix2 twiddle (evens xs)) (radix2 twiddle (odds xs))
termination_by xs.length
decreasing_by
  · rw [length_evens]; omega
  · rw [length_odds]; omega

def transform [Add β] [Sub β] [Mul β] (twiddle : Nat → Nat → β) (xs : List β) :
    Except Fault (List β) :=
  if isPowerOfTwo xs.length then .ok (radix2 twiddle xs)
  else .error (.signal (.transformLength xs.length))

end

/-- The values in the order in which the transform reaches them. -/
def leaves {β : Type} (xs : List β) : List β :=
  if xs.length ≤ 1 then xs else leaves (evens xs) ++ leaves (odds xs)
termination_by xs.length
decreasing_by
  · rw [length_evens]; omega
  · rw [length_odds]; omega

variable {α : Type} [NatCast α] [Add α] [Sub α] [Mul α] [Div α] [Elementary α]

def spectrum (xs : List (Cartesian α)) : Except Fault (List (Cartesian α)) :=
  transform Cartesian.twiddle xs

def realSpectrum (xs : List α) : Except Fault (List (Cartesian α)) :=
  spectrum (xs.map Cartesian.ofReal)

/-- The modulus of every value of the transform. -/
def magnitudes [Neg α] [LT α] [DecidableLT α] [BEq α] [FiniteTest α] (xs : List (Cartesian α)) :
    Except Fault (List α) :=
  (·.map Cartesian.abs) <$> spectrum xs

end Fourier

end WaveNotebook
