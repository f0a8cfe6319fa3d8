/-!
# Ranges of code points

A character class of the Unicode standard is kept as a list of closed ranges in increasing order.
Looking a code point up stops at the first range that begins above it, so a class costs little for
the characters at the front of the standard.
-/

namespace Criteria.Text

/-- Closed ranges of code points, disjoint and in increasing order. -/
abbrev Ranges := List (Nat × Nat)

namespace Ranges

/-- Whether a code point lies in one of the ranges. -/
def contains : Ranges → Nat → Bool
  | [], _ => false
  | (first, last) :: rest, n =>
    if n < first then false else if n ≤ last then true else contains rest n

/-- The range that holds a code point. -/
def find? : Ranges → Nat → Option (Nat × Nat)
  | [], _ => none
  | (first, last) :: rest, n =>
    if n < first then none else if n ≤ last then some (first, last) else find? rest n

end Ranges

end Criteria.Text
