import WaveNotebook.Session

/-!
# Operations on shared matrices

A matrix is known by its handle. Sums, products and the transpose are new
matrices with handles of their own; `set` edits the matrix in place, so that
every holder of the handle sees the new entry.
-/

namespace WaveNotebook

namespace Handle

open Run

def add (h : Handle) : Argument → Run Value
  | .value (.matrix k) => do newMatrix (← lift ((← grid h).add (← grid k)))
  | _ => fail (.grid .addend)

/-- The product with a number or with another matrix. -/
def multiply (h : Handle) : Argument → Run Value
  | .value (.number x) =>
    if isFinite x then do newMatrix (← lift ((← grid h).scale x))
    else fail (.grid (.factor (floatText x)))
  | .value (.matrix k) => do newMatrix (← lift ((← grid h).multiply (← grid k)))
  | _ => fail (.grid .multiplier)

def transpose (h : Handle) : Run Value := do
  newMatrix (← grid h).transpose

def get (h : Handle) (row col : Datum) : Run Value := do
  .number <$> lift ((← grid h).get row col)

/-- Replaces an entry, and yields the matrix itself. -/
def set (h : Handle) (row col value : Datum) : Run Value := do
  putGrid h (← lift ((← grid h).set row col value))
  return .matrix h

end Handle

end WaveNotebook
