/-!
# Sets of code points as ranges

A property of characters is a list of ranges of code points, both ends included, in ascending order.
-/

namespace ServiceContract.Text

/-- Whether a code point lies in one of the ranges. The search ends at the first range above it. -/
def inRanges : List (Nat × Nat) → Nat → Bool
  | [], _ => false
  | (low, high) :: ranges, n =>
    if n < low then false else if n ≤ high then true else inRanges ranges n

end ServiceContract.Text
