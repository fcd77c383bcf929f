import WaveNotebook.Number.Binary64

/-!
# Number types for the kernels

The numeric kernels are written once, over any type with the arithmetic that
they use. The notebook runs them on doubles. The classes here add what core has
no class for: the elementary functions, and the test that tells the numbers a
signal may hold from the others.
-/

namespace WaveNotebook

class Elementary (α : Type) where
  pi : α
  sqrt : α → α
  fourthPower : α → α
  sin : α → α
  cos : α → α
  exp : α → α

/-- Whether a value stands for a number. Overflow and undefined results do not. -/
class FiniteTest (α : Type) where
  isFinite : α → Bool

export FiniteTest (isFinite)

instance floatOfNat : NatCast Float := ⟨Float.ofNat⟩

instance : Elementary Float where
  pi := 3.141592653589793
  sqrt := Float.sqrt
  fourthPower := Binary64.fourthPower
  sin := Float.sin
  cos := Float.cos
  exp := Float.exp

instance : FiniteTest Float := ⟨Binary64.isFinite⟩

section

variable {α : Type} [NatCast α]

/-- The sum from left to right, starting at zero. -/
def sum [Add α] (xs : List α) : α :=
  xs.foldl (· + ·) ((0 : Nat) : α)

/-- The sum of the products of the entries of two lists. -/
def dot [Add α] [Mul α] (xs ys : List α) : α :=
  sum (List.zipWith (· * ·) xs ys)

/-- The sums of the entries at the eight residues of their places. -/
def laneSums [Add α] : (lanes rest : List α) → List α
  | lanes, a :: b :: c :: d :: e :: f :: g :: h :: rest =>
    laneSums (List.zipWith (· + ·) lanes [a, b, c, d, e, f, g, h]) rest
  | lanes, _ => lanes

/-- The sum of eight lanes, joined two by two. -/
def joinLanes [Add α] : List α → α
  | [a, b, c, d, e, f, g, h] => ((a + b) + (c + d)) + ((e + f) + (g + h))
  | lanes => sum lanes

/-- The sum of a block: eight lanes, and then the entries that do not fill them. -/
def blockSum [Add α] (xs : List α) : α :=
  if xs.length < 8 then sum xs
  else
    (xs.drop (xs.length - xs.length % 8)).foldl (· + ·)
      (joinLanes (laneSums (xs.take 8) (xs.drop 8)))

/-- The sum of a list that is halved until it fits into blocks, so that rounding errors grow
slowly with its length. -/
def pairwiseSum [Add α] (xs : List α) : α :=
  if xs.length ≤ 128 then blockSum xs
  else
    let half := xs.length / 2 - xs.length / 2 % 8
    pairwiseSum (xs.take half) + pairwiseSum (xs.drop half)
termination_by xs.length
decreasing_by
  · simp only [List.length_take]; omega
  · simp only [List.length_drop]; omega

def mean [Add α] [Div α] (xs : List α) : α :=
  pairwiseSum xs / (xs.length : α)

def magnitude [Neg α] [LT α] [DecidableLT α] (x : α) : α :=
  if x < ((0 : Nat) : α) then -x else x

end

end WaveNotebook
