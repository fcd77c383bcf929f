/-!
# Character classes

A class is a table of closed ranges of code points.
-/

namespace WaveNotebook.Text

structure CharClass where
  ranges : List (Nat × Nat)

def CharClass.contains (k : CharClass) (c : Char) : Bool :=
  k.ranges.any fun r => r.1 ≤ c.toNat && c.toNat ≤ r.2

end WaveNotebook.Text
