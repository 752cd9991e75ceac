import DottedLisp.Eval.Procedure

/-!
# Evaluation

`evaluateWith` is one evaluation, given an evaluator for the subexpressions. `evaluate` ties the
knot with a limit on how deep evaluations nest: with nothing left of the limit the result is
`Failure.tooDeep`, which is neither a value nor an error.
-/

namespace DottedLisp

/-- Evaluate an expression, with `eval` for everything inside it. An atom is looked up. A form is a
primitive's, a procedure (which is its own value), or the call of what its head is bound to. -/
def evaluateWith (eval : Evaluator) : Evaluator
  | .atom x, env => do return (← env.lookup x)
  | .pair (.atom head) tail, env =>
    match Primitive.ofAtom? head with
    | some p => p.apply eval tail env
    | none =>
      if (Procedure.ofAtom? head).isSome then do return (← Procedure.value (.atom head) tail)
      else do Procedure.apply eval (← env.lookup head) tail env
  | .pair head tail, env => Procedure.apply eval head tail env

/-- Evaluate an expression, with at most `limit` evaluations inside each other. -/
def evaluate : (limit : Nat) → Evaluator
  | 0 => fun _ _ => Run.fail .tooDeep
  | limit + 1 => evaluateWith (evaluate limit)

end DottedLisp
