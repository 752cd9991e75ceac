import DottedLisp.Eval.Evaluator

/-!
# Applying primitives

A primitive gets the rest of its form unevaluated and evaluates what it needs. Two operands are the
components of a pair, not the items of a list: `(eq . (x . y))`.
-/

namespace DottedLisp

namespace Primitive

/-- The two operands of a primitive, as the components of a pair. -/
def operands (p : Primitive) : Expr → Except Error (Expr × Expr)
  | .pair x y => .ok (x, y)
  | tail => .error (.operandsExpected p tail)

/-- The components of a value that a primitive takes apart. -/
def components (p : Primitive) : Expr → Except Error (Expr × Expr)
  | .pair x y => .ok (x, y)
  | value => .error (.notAList p value)

/-- Are both expressions atoms, and the same one? A pair equals nothing. -/
def sameAtom : Expr → Expr → Bool
  | .atom a, .atom b => a = b
  | _, _ => false

variable {m : Type → Type} [Monad m] [MonadLiftT (Except Error) m] [MonadLiftT (Run Failure) m]

/-- The value of the first clause whose predicate is not `nil`. A clause is looked at only when all
predicates before it were `nil`. -/
def chooseClause (eval : Expr → Env → m Expr) (env : Env) : List Expr → m Expr
  | [] => pure Expr.nil
  | .pair predicate value :: clauses => do
    let holds ← eval predicate env
    if holds = Expr.nil then chooseClause eval env clauses else eval value env
  | clause :: _ => Run.refuse (.clauseNotAList clause)

/-- Apply a primitive to the rest of its form. -/
def apply (eval : Expr → Env → m Expr) (p : Primitive) (tail : Expr) (env : Env) : m Expr :=
  match p with
  | .quote => pure tail
  | .atom => do
    let value ← eval tail env
    return Expr.truth value.isAtom
  | .eq => do
    let (left, right) ← operands .eq tail
    let x ← eval left env
    let y ← eval right env
    return Expr.truth (sameAtom x y)
  | .car => do
    let value ← eval tail env
    let (x, _) ← components .car value
    return x
  | .cdr => do
    let value ← eval tail env
    let (_, y) ← components .cdr value
    return y
  | .cons => do
    let (left, right) ← operands .cons tail
    let x ← eval left env
    let y ← eval right env
    return .pair x y
  | .cond => do
    let clauses ← tail.toList (text "cond clause list")
    chooseClause eval env clauses

end Primitive

end DottedLisp
