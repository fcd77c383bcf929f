import WaveNotebook.Fault.Category

/-!
# Faults of dimensions

Arrays whose dimensions do not go together, or are not those that an operation
takes.
-/

namespace WaveNotebook

inductive ShapeFault
  /-- Data with parts of different lengths, and the dimensions that they have in common. -/
  | ragged (shape : List Nat)
  /-- Lists nested so deep that there would be more than so many dimensions. -/
  | nested (most : Nat)
  /-- Two arrays whose dimensions do not go together. -/
  | apart (left right : List Nat)
  /-- Two arrays whose product needs the same length at two places of their dimensions. -/
  | alignment (left right : List Nat) (i j : Nat)
  /-- Values whose dimensions do not fit the places that they are for. -/
  | values (shape places : List Nat)
  | tooDeep
  | tooShallow
  | emptyKernel

def ShapeFault.message : ShapeFault → String
  | ragged shape =>
    "setting an array element with a sequence. The requested array has an inhomogeneous shape" ++
      " after " ++ natText shape.length ++ " dimensions. The detected shape was " ++
      shapeText shape ++ " + inhomogeneous part."
  | nested most =>
    "setting an array element with a sequence. The requested array would exceed the maximum" ++
      " number of dimension of " ++ natText most ++ "."
  | apart left right =>
    "operands could not be broadcast together with shapes " ++ spacelessText left ++ " " ++
      spacelessText right ++ " "
  | alignment left right i j =>
    "shapes " ++ spacelessText left ++ " and " ++ spacelessText right ++ " not aligned: " ++
      natText (left.getD i 0) ++ " (dim " ++ natText i ++ ") != " ++ natText (right.getD j 0) ++
      " (dim " ++ natText j ++ ")"
  | values shape places =>
    "shape mismatch: value array of shape " ++ spacelessText shape ++
      " could not be broadcast to indexing result of shape " ++ spacelessText places
  | tooDeep => "object too deep for desired array"
  | tooShallow => "object of too small depth for desired array"
  | emptyKernel => "second array argument cannot be empty"

end WaveNotebook
