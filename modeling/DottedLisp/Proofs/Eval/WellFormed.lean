import DottedLisp.Proofs.Eval.Failure
import DottedLisp.Proofs.Text.Characters

/-!
# Well-formed environments

An environment is well formed if every element along its spine binds an atom. What ends the spine
does not matter. Evaluation makes environments in two places: a label form binds its name, a lambda
form binds its parameters. Names and parameters are data of any shape there, and may have been put
together on the way, but both places refuse what is no atom. So from a well-formed environment only
well-formed ones are reached, and no look-up ever meets an element that is no binding.

That every environment of a run is well formed is said by an evaluation that checks: it gives an
alarm in the first environment that is not, and it cannot be told from the evaluation that does not
check (`evaluate_of_wellFormed`).
-/

namespace DottedLisp

/-- Does the expression bind an atom? -/
def Expr.isBinding : Expr → Bool
  | .pair (.atom _) _ => true
  | _ => false

namespace Env

/-- Every element of the environment binds an atom. -/
def WellFormed (env : Env) : Prop := ∀ b ∈ env.elements, b.isBinding = true

instance : DecidablePred WellFormed := fun env =>
  inferInstanceAs (Decidable (∀ b ∈ env.elements, b.isBinding = true))

theorem wellFormed_pair {b : Expr} {env : Env} :
    WellFormed (.pair b env) ↔ b.isBinding = true ∧ env.WellFormed :=
  List.forall_mem_cons

theorem WellFormed.bind {env : Env} (h : env.WellFormed) (x : Atom) (v : Expr) :
    (env.bind x v).WellFormed :=
  wellFormed_pair.mpr ⟨rfl, h⟩

/-- **In a well-formed environment a look-up fails only for want of a binding.** -/
theorem WellFormed.lookup_error {env : Env} (h : env.WellFormed) {x : Atom} {e : Error}
    (he : env.lookup x = .error e) : e = .unbound (.atom x) := by
  induction env with
  | atom a =>
    cases he
    rfl
  | pair b rest _ ih =>
    obtain ⟨hb, hrest⟩ := wellFormed_pair.mp h
    cases b with
    | atom a => cases hb
    | pair name value =>
      rw [lookup] at he
      split at he
      · cases he
      · exact ih hrest he

end Env

/-! ## The words of the refusals -/

/-- The failure is not the refusal of a malformed binding, as its words tell. -/
def Failure.SparesBindings : Failure → Prop
  | .error e => ¬text "malformed binding in environment: " <+: e.message
  | _ => True

/-- **No refusal of evaluation itself sounds like that of a malformed binding.** -/
theorem Error.Like.sparesBindings {e : Error} (h : e.Like Eq e) :
    (Failure.error e).SparesBindings := by
  -- each of the refusals differs from it in the words that it starts with
  show ¬_ <+: e.message
  cases h with
  | improperList hwhat _ =>
    simp only [message, List.append_assoc]
    simp only [listNames, List.mem_cons, List.not_mem_nil, or_false] at hwhat
    rcases hwhat with rfl | rfl | rfl
    all_goals exact Text.not_prefix_append (by decide) (by decide) _
  | operandsExpected p _ | notAList p _ =>
    simp only [message, List.append_assoc]
    exact Text.not_prefix_append (by cases p <;> decide) (by cases p <;> decide) _
  | malformedProcedure form _ =>
    rw [message, List.append_assoc, ← List.append_assoc]
    exact Text.not_prefix_append (by cases form <;> decide) (by cases form <;> decide) _
  | arity _ _ =>
    simp only [message, List.append_assoc]
    exact Text.not_prefix_append (by decide) (by decide) _
  | parameterNotAtom _ | clauseNotAList _ | labelNotAtom _ | labelPrimitive _ | notAFunction _
  | noRule _ =>
    exact Text.not_prefix_append (by decide) (by decide) _

/-! ## Checking on the way -/

/-- Evaluation beside itself, in one well-formed environment. -/
def Simulation.wellFormed : Simulation :=
  sameNames (fun env env' => env = env' ∧ env.WellFormed) (fun f f' => f = f' ∧ f.SparesBindings)
    (fun _ => False)
    (fun henv => ⟨congrArg _ henv.1, henv.2.bind _ _⟩)
    (fun henv hv => henv.1 ▸ hv)
    (by
      rintro x e env _ ⟨rfl, henv⟩ he
      obtain rfl := henv.lookup_error he
      exact .inr ⟨_, he, rfl, Text.not_prefix_append (by decide) (by decide) _⟩)
    (fun h => ⟨rfl, h.sparesBindings⟩)

/-- Gives the alarm in an environment that is not well formed. -/
def Evaluator.checked (alarm : Failure) (eval : Evaluator) : Evaluator := fun e env =>
  if env.WellFormed then eval e env else Run.fail alarm

/-- Evaluation that checks the environment of every evaluation inside it. -/
def evaluateChecked (alarm : Failure) : (limit : Nat) → Evaluator
  | 0 => Evaluator.checked alarm fun _ _ => Run.fail .tooDeep
  | limit + 1 => Evaluator.checked alarm (evaluateWith (evaluateChecked alarm limit))

theorem evaluators_checked {eval eval' : Evaluator}
    (h : Simulation.wellFormed.Evaluators eval eval')
    (alarm : Failure) : Simulation.wellFormed.Evaluators eval (eval'.checked alarm) := by
  intro e e' env env' he henv
  have hwell : env'.WellFormed := henv.1 ▸ henv.2
  unfold Evaluator.checked
  rw [if_pos hwell]
  exact h he henv

theorem evaluators_evaluateChecked (alarm : Failure) (limit : Nat) :
    Simulation.wellFormed.Evaluators (evaluate limit) (evaluateChecked alarm limit) := by
  induction limit with
  | zero =>
    have hdeep : Simulation.wellFormed.Failures .tooDeep .tooDeep := ⟨rfl, trivial⟩
    have hzero : Simulation.wellFormed.Evaluators (evaluate 0) (evaluate 0) :=
      Simulation.evaluators_evaluate_same (.inr hdeep) 0
    intro e e' env env' he henv
    exact evaluators_checked hzero alarm he henv
  | succ limit ih => exact evaluators_checked (Simulation.evaluators_evaluateWith ih) alarm

/-- **A well-formed environment stays well formed through evaluation.** Checking the environment of
every evaluation on the way changes nothing, whatever the alarm: it is never given. And no refusal
has the words of a malformed binding. -/
theorem evaluate_of_wellFormed {env : Env} (henv : env.WellFormed) (limit : Nat) (e : Expr) :
    (∀ alarm, (evaluateChecked alarm limit e env).result = (evaluate limit e env).result) ∧
      ∀ refusal, (evaluate limit e env).result = .error (.error refusal) →
        ¬text "malformed binding in environment: " <+: refusal.message := by
  have hruns := fun alarm => evaluators_evaluateChecked alarm limit (.refl e) ⟨rfl, henv⟩
  constructor
  · intro alarm
    exact ((hruns alarm).result_eq Expr.Like.eq And.left (fun _ => id)).symm
  · intro refusal hrefusal
    obtain ⟨_, _, _, hspares⟩ := (hruns .tooDeep).exists_error id hrefusal
    exact hspares

/-- A look-up behind a label and a lambda form comes to the end of the environment, which is no
list. With an element behind the bindings that is no pair, it is refused. -/
theorem evaluate_of_wellFormed_unbound :
    let x : Atom := ⟨text "x", by decide⟩
    let y : Atom := ⟨text "y", by decide⟩
    let g : Atom := ⟨text "g", by decide⟩
    let procedure : Expr :=
      .pair (.atom Procedure.lambda.head) (.pair (.pair (.atom x) Expr.nil) (.atom y))
    let e : Expr := .pair (.pair (.atom Procedure.label.head) (.pair (.atom g) procedure))
      (.pair (.atom x) Expr.nil)
    let env : Env := Env.bind x Expr.t (.atom x)
    let env' : Env := Env.bind x Expr.t (.pair Expr.t Expr.nil)
    let refusal : Error := .unbound (.atom y)
    env.WellFormed ∧ (evaluate 3 e env).result = .error (.error refusal) ∧
      (evaluateChecked .danglingDot 3 e env).result = .error (.error refusal) ∧
      ¬text "malformed binding in environment: " <+: refusal.message ∧
      ¬env'.WellFormed ∧
        (evaluate 3 e env').result = .error (.error (.malformedBinding Expr.t)) := by
  intro x y g procedure e env env' refusal
  have henv : env.WellFormed := by decide
  have hrefusal : (evaluate 3 e env).result = .error (.error refusal) := by decide +kernel
  obtain ⟨hchecked, hwords⟩ := evaluate_of_wellFormed henv 3 e
  exact ⟨henv, hrefusal, (hchecked .danglingDot).trans hrefusal, hwords refusal hrefusal, by decide,
    by decide +kernel⟩

end DottedLisp
