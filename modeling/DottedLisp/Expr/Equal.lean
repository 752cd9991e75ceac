import DottedLisp.Env

/-!
# Comparing expressions under a nesting limit

Two expressions are compared along their spines, and nested within their first components. The
nesting is limited, and the comparison stops at the first difference, so it can tell two deep
expressions apart without reaching the limit.
-/

namespace DottedLisp

namespace Expr

/-- Are the expressions equal? At most `limit` first components inside each other are entered. -/
def sameWithin : Expr → Expr → (limit : Nat) → Except Failure Bool
  | .atom a, .atom b, _ => .ok (a = b)
  | .pair _ _, .pair _ _, 0 => .error .tooDeep
  | .pair x xs, .pair y ys, limit + 1 => do
    if ← sameWithin x y limit then sameWithin xs ys (limit + 1) else return false
  | _, _, _ => .ok false

/-- How many different expressions two expressions are. To tell them apart by content both are
visited as a whole, so the nesting of either can reach the limit. -/
def countDistinct (x : Expr) (limit : Nat) (y : Expr) : Except Failure Nat :=
  if x.carNestsWithin limit && y.carNestsWithin limit then .ok (if x = y then 1 else 2)
  else .error .tooDeep

end Expr

namespace Env

/-- The value that is paired with a key, which may be any expression. For an atom this is
`lookup`. -/
def search (limit : Nat) (key : Expr) : Env → Except Failure Expr
  | .atom _ => .error (.error (.unbound key))
  | .pair (.pair name value) rest => do
    if ← name.sameWithin key limit then return value else search limit key rest
  | .pair binding _ => .error (.error (.malformedBinding binding))

end Env

end DottedLisp
