import DottedLisp.Proofs.Eval.Label
import DottedLisp.Proofs.Eval.Names

/-!
# Passing a procedure

A procedure form can be applied where it stands, or it can be handed to a lambda form that calls its
parameter. On the second way the form is evaluated first, which checks it and gives it back. It is
bound to the parameter, found as the head of the call, and applied to the same arguments in an
environment that has one binding more.

Both ways end the same. A form that is not in order is refused for the same reason, whether it is
evaluated or applied (`Procedure.result_apply_of_value_error`), and a binding of a fresh name is out
of sight. The second way takes exactly one level more.
-/

namespace DottedLisp

variable {eval : Evaluator} {env : Env}

namespace Lambda

theorem result_arguments_one (arg : Expr) :
    (arguments eval (.pair arg Expr.nil) env).result =
      (eval arg env).result.map fun v => .pair v Expr.nil := by
  have hlist : (Expr.pair arg Expr.nil).toList (text "argument list") = .ok [arg] :=
    Expr.toList_ofList _ [arg]
  unfold arguments
  rw [hlist]
  show ([arg].mapM (fun arg => eval arg env) >>= fun vs => pure (Expr.ofList vs)).result = _
  simp only [List.mapM_cons, List.mapM_nil, Run.result_bind, Run.result_pure]
  cases (eval arg env).result <;> rfl

/-- A lambda form with one parameter evaluates its argument, and then its body with the parameter
bound. -/
theorem result_apply_one (x : Atom) (body arg : Expr) :
    (apply eval (.pair (.pair (.atom x) Expr.nil) body) (.pair arg Expr.nil) env).result =
      (eval arg env).result.bind fun v => (eval body (env.bind x v)).result := by
  have hbind : ∀ v, Env.ofParameters (.pair (.atom x) Expr.nil) (.pair v Expr.nil) =
      .ok (Expr.ofList [.pair (.atom x) v]) :=
    fun v => Env.ofParameters_eq_ok_iff.mpr ⟨[x], [v], rfl, rfl, rfl, rfl⟩
  have happly : apply eval (.pair (.pair (.atom x) Expr.nil) body) (.pair arg Expr.nil) env =
      arguments eval (.pair arg Expr.nil) env >>= fun values =>
        liftM (Env.ofParameters (.pair (.atom x) Expr.nil) values) >>= fun bindings =>
          Run.note (.bindings bindings) >>= fun _ =>
            liftM (bindings.append env) >>= fun inner => eval body inner := rfl
  rw [happly, Run.result_bind, result_arguments_one]
  cases (eval arg env).result with
  | error e => rfl
  | ok v =>
    simp only [Except.map, Except.bind]
    rw [hbind]
    rfl

end Lambda

theorem Except.eq_error_of_bind_ok {ε α β : Type} {x : Except ε α} {f : α → β} {e : ε}
    (h : (x >>= fun a => .ok (f a)) = .error e) : x = .error e := by
  cases x with
  | error e' =>
    cases h
    rfl
  | ok a => cases h

namespace Procedure

theorem eq_of_value_ok {form : Procedure} {rest v : Expr}
    (h : value (.atom form.head) rest = .ok v) :
    v = .pair (.atom form.head) rest := by
  cases form with
  | label =>
    obtain ⟨_, _, _, rfl⟩ := value_label_eq_ok_iff.mp h
    rfl
  | lambda =>
    obtain ⟨_, _, _, rfl⟩ := value_lambda_eq_ok_iff.mp h
    rfl

/-- **A form that is not in order is refused for the same reason, evaluated or applied.** -/
theorem result_apply_of_value_error {form : Procedure} {rest : Expr} {e : Error}
    (h : value (.atom form.head) rest = .error e) (args : Expr) :
    (apply eval (.pair (.atom form.head) rest) args env).result = .error (.error e) := by
  rw [value_eq] at h
  cases form with
  | label =>
    rw [if_pos rfl] at h
    rw [apply_label]
    unfold Label.apply
    rw [Except.eq_error_of_bind_ok h]
    rfl
  | lambda =>
    rw [if_neg (by decide)] at h
    rw [apply_lambda]
    unfold Lambda.apply
    rw [Except.eq_error_of_bind_ok h]
    rfl

end Procedure

/-- Evaluating a form that is handed over and calling it is applying it, with one binding more. -/
theorem result_evaluate_passed (form : Procedure) (rest args : Expr) {f : Atom}
    (hf : f.isForm = false) (limit : Nat) :
    let procedure : Expr := .pair (.atom form.head) rest
    let call : Expr := .pair (.pair (.atom Procedure.lambda.head) (.pair (.pair (.atom f) Expr.nil)
      (.pair (.atom f) args))) (.pair procedure Expr.nil)
    (evaluate (limit + 2) call env).result =
      (evaluate (limit + 1) (.pair procedure args) (env.bind f procedure)).result := by
  intro procedure call
  have hdirect : evaluate (limit + 1) (.pair procedure args) (env.bind f procedure) =
      Procedure.apply (evaluate limit) procedure args (env.bind f procedure) := rfl
  show (Procedure.apply (evaluate (limit + 1))
    (.pair (.atom Procedure.lambda.head) _) _ env).result = _
  rw [Procedure.apply_lambda, Lambda.result_apply_one, hdirect]
  have hvalue : evaluate (limit + 1) procedure env =
      liftM (Procedure.value (.atom form.head) rest) :=
    evaluateWith_procedure form rest
  rw [hvalue]
  -- a form that is refused as an argument never gets as far as the call, but its call is refused
  -- alike
  cases h : Procedure.value (.atom form.head) rest with
  | error e => exact (Procedure.result_apply_of_value_error h args).symm
  | ok v =>
    obtain rfl := Procedure.eq_of_value_ok h
    show (evaluateWith (evaluate limit) (.pair (.atom f) args) (env.bind f procedure)).result = _
    rw [evaluateWith_bound_call hf]

/-- **Passing a procedure as an argument is applying it in place.** Whether the form is in order or
not, with a fresh name for the parameter both give the same value or the same error, and the first
takes one level more. So they agree under any limits under which both come to an end. -/
theorem evaluate_passed (form : Procedure) (rest args : Expr) {f : Atom} (hf : f.isForm = false)
    (ht : f ≠ Atom.t) (hnil : f ≠ Atom.nil)
    (hprocedure : f ∉ (Expr.pair (.atom form.head) rest).names)
    (hargs : f ∉ args.names) {env : Env} (henv : ∀ b ∈ env.bindings, f ∉ b.2.names) :
    let procedure : Expr := .pair (.atom form.head) rest
    let passed : Expr :=
      .pair (.pair (.atom Procedure.lambda.head) (.pair (.pair (.atom f) Expr.nil)
      (.pair (.atom f) args))) (.pair procedure Expr.nil)
    let direct : Expr := .pair procedure args
    (∀ limit, (evaluate (limit + 1) passed env).result = (evaluate limit direct env).result) ∧
      ∀ limit limit', (evaluate limit passed env).result ≠ .error .tooDeep →
        (evaluate limit' direct env).result ≠ .error .tooDeep →
        (evaluate limit passed env).result = (evaluate limit' direct env).result := by
  intro procedure passed direct
  have hdirect : direct.Within (· ≠ f) :=
    Expr.within_pair.mpr ⟨Expr.within_ne_iff.mpr hprocedure, Expr.within_ne_iff.mpr hargs⟩
  have hlevel : ∀ limit,
      (evaluate (limit + 1) passed env).result = (evaluate limit direct env).result := by
    intro limit
    cases limit with
    | zero =>
      -- no level is left for the form itself
      show (Procedure.apply (evaluate 0) (.pair (.atom Procedure.lambda.head) _) _ env).result = _
      rw [Procedure.apply_lambda, Lambda.result_apply_one]
      rfl
    | succ limit =>
      have hagree := Env.agreeWithin_bind_of_fresh henv procedure
      rw [result_evaluate_passed form rest args hf]
      exact evaluate_eq_of_agreeWithin ht.symm hnil.symm hdirect hagree (limit + 1)
  refine ⟨hlevel, fun limit limit' hpassed hend => ?_⟩
  cases limit with
  | zero => exact absurd rfl hpassed
  | succ limit =>
    rw [hlevel] at hpassed ⊢
    exact evaluate_eq_of_ends hpassed hend

/-- A procedure that calls itself, handed to a name that is bound already; and a label form that is
refused because it has the name of a primitive. -/
theorem evaluate_passed_recursive :
    let g : Atom := ⟨text "g", by decide⟩
    let ff : Atom := ⟨text "ff", by decide⟩
    let x : Expr := .atom ⟨text "x", by decide⟩
    let again : Expr := .pair (.atom ff) (.pair (.pair (.atom Primitive.car.name) x) Expr.nil)
    let clauses : Expr := .pair (.pair (.pair (.atom Primitive.atom.name) x) x)
      (.pair (.pair Expr.t again) Expr.nil)
    let body : Expr := .pair (.atom Procedure.lambda.head)
      (.pair (.pair x Expr.nil) (.pair (.atom Primitive.cond.name) clauses))
    let form : Atom → Expr :=
      fun name => .pair (.atom Procedure.label.head) (.pair (.atom name) body)
    let args : Expr := .pair (.pair (.atom Primitive.quote.name)
      (.pair (.pair Expr.t Expr.nil) Expr.nil)) Expr.nil
    let passed : Expr → Expr := fun procedure => .pair (.pair (.atom Procedure.lambda.head)
      (.pair (.pair (.atom g) Expr.nil) (.pair (.atom g) args))) (.pair procedure Expr.nil)
    let env : Env := Env.initial.bind g Expr.nil
    let refusal : Failure := .error (.labelPrimitive Primitive.car.name)
    g.isForm = false ∧ g ≠ Atom.t ∧ g ≠ Atom.nil ∧ g ∉ (form ff).names ∧
      g ∉ (form Primitive.car.name).names ∧ g ∉ args.names ∧ (∀ b ∈ env.bindings, g ∉ b.2.names) ∧
      (evaluate 12 (.pair (form ff) args) env).result = .ok Expr.t ∧
      (evaluate 13 (passed (form ff)) env).result = .ok Expr.t ∧
      (evaluate 1 (.pair (form Primitive.car.name) args) env).result = .error refusal ∧
      (evaluate 2 (passed (form Primitive.car.name)) env).result = .error refusal := by
  intro g ff x again clauses body form args passed env refusal
  have hg : g.isForm = false := by decide
  have ht : g ≠ Atom.t := by decide
  have hnil : g ≠ Atom.nil := by decide
  have hff : g ∉ (form ff).names := by decide
  have hcar : g ∉ (form Primitive.car.name).names := by decide
  have hargs : g ∉ args.names := by decide
  have henv : ∀ b ∈ env.bindings, g ∉ b.2.names := by decide
  have hvalue : (evaluate 12 (.pair (form ff) args) env).result = .ok Expr.t := by decide +kernel
  have hrefused : (evaluate 1 (.pair (form Primitive.car.name) args) env).result =
      .error refusal := by
    decide +kernel
  have hsame := (evaluate_passed .label (.pair (.atom ff) body) args hg ht hnil hff hargs henv).1 12
  have hsame' := (evaluate_passed .label _ args hg ht hnil hcar hargs henv).1 1
  exact ⟨hg, ht, hnil, hff, hcar, hargs, henv, hvalue, hsame.trans hvalue, hrefused,
    hsame'.trans hrefused⟩

end DottedLisp
