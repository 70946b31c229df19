/-!
# Sets of code points

A set of code points is a list of closed ranges in ascending order. The modules of character
properties each hold one such list.
-/

namespace Tether

/-- Closed ranges of code points. -/
abbrev Ranges := List (Nat × Nat)

namespace Ranges

/-- Whether a code point lies in one of the ranges. -/
def contains (ranges : Ranges) (n : Nat) : Bool := ranges.any fun r => r.1 ≤ n && n ≤ r.2

/-- Whether all ranges lie at `low` or above, each with its ends in order and before the
next. -/
def isAscendingFrom (low : Nat) : Ranges → Bool
  | [] => true
  | r :: rest => low ≤ r.1 && r.1 ≤ r.2 && isAscendingFrom (r.2 + 1) rest

end Ranges

end Tether
