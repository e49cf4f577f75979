/-!
# Sets of characters

A set of characters is given by the closed ranges of code points that make it up. The property
tables beside this module are such sets.
-/

namespace FileGateway.Text

/-- Whether the code point of `c` lies in one of the closed ranges. -/
def inRanges (ranges : List (Nat × Nat)) (c : Char) : Bool :=
  ranges.any fun r => r.1 ≤ c.toNat && c.toNat ≤ r.2

end FileGateway.Text
