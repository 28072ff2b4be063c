/-!
# Sets of code points

A set of code points is a list of closed ranges in ascending order. Membership walks the list and
stops at the first range that begins beyond the code point, so a small code point costs a few
comparisons whatever the length of the table.
-/

namespace RecordQuery

/-- Closed ranges of code points, ascending and apart from each other. -/
abbrev CodeRanges := List (Nat × Nat)

/-- Whether a code point lies in one of the ranges. -/
def CodeRanges.has : CodeRanges → Nat → Bool
  | [], _ => false
  | (low, high) :: rest, n =>
    if n < low then false else if n ≤ high then true else CodeRanges.has rest n

end RecordQuery
