import DottedLisp.Run

/-!
# Evaluators

Applying a form takes the evaluator for its subexpressions as an argument. So the order in which
subexpressions are evaluated, and in which environment, can be read off and stated without knowing
what evaluation does.

`Evaluator.watching` makes the calls visible. `Evaluator.remembering` does so for a function that
knows which calls came before: it may answer an equal call differently the next time. It needs a
monad with a memory, so forms are applied in any monad that has the effects of a run.
-/

namespace DottedLisp

/-- A way to evaluate expressions in environments. -/
abbrev Evaluator := Expr → Env → Run Failure Expr

/-- Calls of an evaluator, in order. -/
abbrev Calls := List (Expr × Env)

/-- Runs that know the calls that were made before. -/
abbrev Watched := StateT Calls (Run Failure)

namespace Evaluator

/-- A function as an evaluator that notes each of its calls. -/
def watching (f : Expr → Env → Except Failure Expr) : Evaluator :=
  fun e env => ⟨[.call e env], f e env⟩

/-- A function of the calls before as an evaluator that notes each of its calls. -/
def remembering (f : Calls → Expr → Env → Except Failure Expr) (e : Expr) (env : Env) :
    Watched Expr :=
  fun before => ⟨[.call e env], (f before e env).map fun v => (v, before ++ [(e, env)])⟩

end Evaluator

end DottedLisp
