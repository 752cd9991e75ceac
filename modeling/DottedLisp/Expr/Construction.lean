import DottedLisp.Error
import DottedLisp.Expr.Listed

/-!
# Notations under a nesting limit

Two ways of writing an expression go into it step by step and so have a limit on nesting: the list
notation nests in first components only, the construction form (`Pair(Atom('a'), Atom('b'))`, which
names how each part is built) in both.
-/

namespace DottedLisp

namespace Expr

/-- How the expression is built, put in front of `rest`. -/
def constructionOnto : Expr → Text → Text
  | .atom a, rest => text "Atom(" ++ a.name.quoted ++ text ")" ++ rest
  | .pair x y, rest =>
    text "Pair(" ++ x.constructionOnto (text ", " ++ y.constructionOnto (text ")" ++ rest))

/-- How the expression is built. -/
def construction (e : Expr) : Text := e.constructionOnto []

/-- The list text, where first components nest no deeper than the limit. -/
def listedWithin (limit : Nat) (e : Expr) : Except Failure Text :=
  if e.carNestsWithin limit then .ok e.listed else .error .tooDeep

/-- The construction form, where components nest no deeper than the limit. -/
def constructionWithin (limit : Nat) (e : Expr) : Except Failure Text :=
  if e.nestsWithin limit then .ok e.construction else .error .tooDeep

end Expr

end DottedLisp
