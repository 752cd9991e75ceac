import DottedLisp.Proofs.Eval.Limit

/-!
# How evaluation fails

An evaluation that has no value stops at the nesting limit or is refused, and then for a cause of
its own: it never fails the way reading does. A simulation of an evaluation by itself shows it,
since a simulation accounts for every failure.
-/

namespace DottedLisp

namespace Env

theorem lookup_error_cases {x : Atom} {env : Env} {e : Error} (h : env.lookup x = .error e) :
    e = .unbound (.atom x) ∨ ∃ a, e = .malformedBinding (.atom a) := by
  induction env with
  | atom a =>
    cases h
    exact .inl rfl
  | pair binding rest _ ih =>
    cases binding with
    | atom a =>
      cases h
      exact .inr ⟨a, rfl⟩
    | pair name value =>
      rw [lookup] at h
      split at h
      · cases h
      · exact ih h

end Env

/-- The error of a look-up, or a refusal of evaluation itself. -/
def Error.Arises (e : Error) : Prop :=
  (∃ (x : Atom) (env : Env), env.lookup x = .error e) ∨ e.Like Eq e

/-- One evaluation beside itself. -/
def Simulation.failing : Simulation :=
  sameNames Eq (fun f f' => f = f' ∧ (f = .tooDeep ∨ ∃ e, f = .error e ∧ e.Arises)) (fun _ => False)
    (fun henv => congrArg _ henv)
    (fun henv hv => henv ▸ hv)
    (by
      rintro x e env _ rfl he
      exact .inr ⟨e, he, rfl, .inr ⟨e, rfl, .inl ⟨x, env, he⟩⟩⟩)
    (fun {e} h => ⟨rfl, .inr ⟨e, rfl, .inr h⟩⟩)

/-- **Where the failures of evaluation come from:** the limit, a look-up or a refusal. -/
theorem evaluate_failure_cases {limit : Nat} {e : Expr} {env : Env} {f : Failure}
    (h : (evaluate limit e env).result = .error f) :
    f = .tooDeep ∨ ∃ e, f = .error e ∧ e.Arises := by
  have hself : Simulation.failing.Evaluators (evaluate limit) (evaluate limit) :=
    Simulation.evaluators_evaluate_same (S := Simulation.failing) (.inr ⟨rfl, .inl rfl⟩) limit
  obtain ⟨f', _, hf⟩ := (hself (.refl e) (rfl : env = env)).exists_error id h
  exact hf.2

/-- The failures that evaluation can have: the limit, and errors that are not errors of reading. -/
def Failure.OfEvaluation : Failure → Prop
  | .error e => e.isReading = false
  | .danglingDot => False
  | .tooDeep => True

/-- **Evaluation fails at the limit or with an error that is not one of reading.** -/
theorem evaluate_failure {limit : Nat} {e : Expr} {env : Env} {f : Failure}
    (h : (evaluate limit e env).result = .error f) : f.OfEvaluation := by
  rcases evaluate_failure_cases h with rfl | ⟨e, rfl, ⟨x, env, he⟩ | hlike⟩
  · trivial
  · rcases Env.lookup_error_cases he with rfl | ⟨a, rfl⟩
    · rfl
    · rfl
  · cases hlike <;> rfl

end DottedLisp
