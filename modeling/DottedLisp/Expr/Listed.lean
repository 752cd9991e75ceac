import DottedLisp.Expr.Basic

/-!
# List notation

The loose notation of expressions: a pair is written as the items along its spine and then the atom
that ends it, all in one group, `(a b nil)`. The ending atom is always written, `nil` too: that is
what makes the notation mean the same expression when it is read back.
-/

namespace DottedLisp

namespace Expr

mutual

/-- The list text of an expression, put in front of `rest`. -/
def listedOnto : Expr → Text → Text
  | .atom a, rest => a.name ++ rest
  | .pair x y, rest => '(' :: x.listedOnto (' ' :: y.listedTailOnto (')' :: rest))

/-- The items of an expression and its ending atom without the parentheses around them. -/
def listedTailOnto : Expr → Text → Text
  | .atom a, rest => a.name ++ rest
  | .pair x y, rest => x.listedOnto (' ' :: y.listedTailOnto rest)

end

/-- The list text of an expression. -/
def listed (e : Expr) : Text := e.listedOnto []

end Expr

end DottedLisp
