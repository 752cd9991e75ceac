import DottedLisp.Expr.Basic

/-!
# Dotted notation

The strict notation: an atom is its name, a pair is `(car.cdr)` without blanks. It shows every pair,
so it is the notation of messages, of the log and of anything that has to be read back exactly.
-/

namespace DottedLisp

namespace Expr

/-- The dotted text of an expression, put in front of `rest`. -/
def dottedOnto : Expr → Text → Text
  | .atom a, rest => a.name ++ rest
  | .pair x y, rest => '(' :: x.dottedOnto ('.' :: y.dottedOnto (')' :: rest))

/-- The dotted text of an expression. -/
def dotted (e : Expr) : Text := e.dottedOnto []

/-- Writing in front of a text is writing, then the text. -/
theorem dottedOnto_eq (e : Expr) (rest : Text) : e.dottedOnto rest = e.dotted ++ rest := by
  induction e generalizing rest with
  | atom a => simp [dotted, dottedOnto]
  | pair x y ihx ihy =>
    simp only [dotted, dottedOnto]
    rw [ihx, ihy, ihx ('.' :: y.dottedOnto _), ihy [_]]
    simp

@[simp] theorem dotted_atom (a : Atom) : (atom a).dotted = a.name := by
  simp [dotted, dottedOnto]

@[simp] theorem dotted_pair (x y : Expr) :
    (pair x y).dotted = CodePoint.ofChar '(' ::
      (x.dotted ++ CodePoint.ofChar '.' :: (y.dotted ++ [CodePoint.ofChar ')'])) := by
  rw [dotted, dottedOnto, dottedOnto_eq x, dottedOnto_eq y]

end Expr

end DottedLisp
