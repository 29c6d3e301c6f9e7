/-!
# Character classes as ascending code ranges

A class of characters is written as the list of its maximal runs of code points, each run as the
pair of its first and last member, in ascending order. Because the runs ascend, the first run that
ends at or after a code point decides whether the code point belongs to the class.
-/

namespace AttributeLint.Text

/-- Membership of a code point in an ascending list of inclusive ranges. -/
def covers : List (Nat × Nat) → Nat → Bool
  | [], _ => false
  | (first, last) :: rest, n => if n ≤ last then decide (first ≤ n) else covers rest n

end AttributeLint.Text
