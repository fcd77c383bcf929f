import WaveNotebook.Kernel.Scalar

/-!
# Wavelet kernels and clamped correlation

A kernel samples its wavelet at unit steps over ten times its scale, around zero.
The correlation of a signal with a kernel takes at each position the window that
is symmetric about it and reaches as far as the kernel and both ends of the
signal allow. In the interior that is the whole reach of the kernel; near the ends
the window shrinks.
-/

namespace WaveNotebook

inductive Wavelet
  | morlet | mexican
  deriving DecidableEq, Repr

namespace Wavelet

/-- The names, two of which stand for the same wavelet. -/
def table : List (String × Wavelet) :=
  [("morlet", morlet), ("mexican", mexican), ("ricker", mexican)]

def names : List String := table.map (·.1)

def ofName? (s : String) : Option Wavelet :=
  table.lookup s

variable {α : Type} [NatCast α] [Add α] [Sub α] [Mul α] [Div α] [Neg α] [Elementary α]

/-- The value of the wavelet at a point. -/
def value (w : Wavelet) (t : α) : α :=
  match w with
  | morlet => Elementary.exp (-t * t / ((2 : Nat) : α)) * Elementary.cos (((5 : Nat) : α) * t)
  | mexican =>
    (((1 : Nat) : α) - t * t) * Elementary.exp (-(t * t) / ((2 : Nat) : α))

/-- The wavelet at `width` points that are one step apart, the scale being so many steps. -/
def kernel (w : Wavelet) (width : Nat) (scale : α) : List α :=
  (List.range width).map fun (i : Nat) =>
    w.value (((i : α) - (width : α) / ((2 : Nat) : α)) / scale)

end Wavelet

/-- The scale of a level doubles from one to the next. -/
def dyadicScale {α : Type} [NatCast α] (level : Nat) : α :=
  (Nat.pow 2 level : α)

namespace Correlation

/-- The entries from a place on, at most a given number of them. -/
def slice {α : Type} (xs : Array α) (start count : Nat) : List α :=
  (xs.extract start (start + count)).toList

/-- How far a kernel of a given length reaches to both sides of its centre. -/
def reach (length : Nat) : Nat :=
  min (length / 2) (length - 1 - length / 2)

variable {α : Type} [NatCast α] [Add α] [Mul α]

/-- The products of the data around a position with the kernel around its centre, `h` entries to
both sides. -/
def windowAt (data kernel : Array α) (h t : Nat) : List α :=
  List.zipWith (· * ·) (slice data (t - h) (2 * h + 1))
    (slice kernel (kernel.size / 2 - h) (2 * h + 1))

/-- The value at a position whose window reaches as far as the kernel. -/
def interiorValue (data kernel : Array α) (t : Nat) : α :=
  sum (windowAt data kernel (reach kernel.size) t)

/-- The value at a position whose window an end of the data cuts short. A single product stands
for itself. -/
def edgeValue (data kernel : Array α) (t : Nat) : α :=
  let h := min (min t (data.size - 1 - t)) (reach kernel.size)
  match windowAt data kernel h t with
  | [x] => x
  | xs => sum xs

/-- The correlation at every position of the data: before, in and after the interior. -/
def clamped (data kernel : List α) : List α :=
  let d := data.toArray
  let k := kernel.toArray
  let n := d.size
  let r := reach k.size
  let stop := max r (n - r)
  (List.range (min r n)).map (edgeValue d k) ++
    (List.range' r (n - 2 * r)).map (interiorValue d k) ++
    (List.range' stop (n - stop)).map (edgeValue d k)

end Correlation

end WaveNotebook
