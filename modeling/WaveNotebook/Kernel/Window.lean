import WaveNotebook.Kernel.Scalar

/-!
# Window curves

A window of `n` coefficients samples one period of a cosine polynomial at the
phases `2πi/(n-1)`, so that both ends carry the same coefficient. A window of a
single coefficient is one.
-/

namespace WaveNotebook

inductive Window
  | hamming | hanning | blackman | rectangular
  deriving DecidableEq, Repr

namespace Window

def all : List Window := [hamming, hanning, blackman, rectangular]

def name : Window → String
  | hamming => "hamming"
  | hanning => "hanning"
  | blackman => "blackman"
  | rectangular => "rectangular"

def names : List String := all.map name

def ofName? (s : String) : Option Window :=
  all.find? (·.name == s)

variable {α : Type} [NatCast α] [Add α] [Sub α] [Mul α] [Div α] [OfScientific α] [Elementary α]

/-- The polynomial `a₀ - a₁ cos φ + a₂ cos 2φ`. -/
def cosineSum (a₀ a₁ a₂ φ : α) : α :=
  a₀ - a₁ * Elementary.cos φ + a₂ * Elementary.cos (((2 : Nat) : α) * φ)

def phase (n i : Nat) : α :=
  ((2 : Nat) : α) * Elementary.pi * (i : α) / ((n - 1 : Nat) : α)

/-- The coefficients of a cosine polynomial. -/
def cosineCurve (n : Nat) (a₀ a₁ a₂ : α) : List α :=
  if n = 1 then [((1 : Nat) : α)]
  else (List.range n).map fun i => cosineSum a₀ a₁ a₂ (phase n i)

def coefficients (w : Window) (n : Nat) : List α :=
  match w with
  | hamming => cosineCurve n 0.54 0.46 ((0 : Nat) : α)
  | hanning => cosineCurve n 0.5 0.5 ((0 : Nat) : α)
  | blackman => cosineCurve n 0.42 0.5 0.08
  | rectangular => List.replicate n ((1 : Nat) : α)

end Window

end WaveNotebook
