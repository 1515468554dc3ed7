/-!
# Ranges of characters

A property of characters is kept as the ranges of the numbers that have it, in ascending order and
apart from each other, so that a look-up can stop early.
-/

namespace StreamFraming.Text

abbrev Ranges := List (Nat × Nat)

namespace Ranges

def covers : Ranges → Nat → Bool
  | [], _ => false
  | (lo, hi) :: rs, n => decide (lo ≤ n) && (decide (n ≤ hi) || covers rs n)

end Ranges

end StreamFraming.Text
