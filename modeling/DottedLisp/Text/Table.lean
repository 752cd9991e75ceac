import DottedLisp.Text.CodePoint

/-!
# Tables of code points

A character property is a table of inclusive ranges in ascending order. A look-up stops at the first
range that starts above the code point, so ASCII is decided within the first few ranges.
-/

namespace DottedLisp

/-- Inclusive ranges of code points, ascending and apart from each other. -/
abbrev Table := List (Nat × Nat)

/-- Does some range of the table hold the number? -/
def Table.contains : Table → Nat → Bool
  | [], _ => false
  | (low, high) :: rest, n =>
    if n < low then false else if n ≤ high then true else Table.contains rest n

end DottedLisp
