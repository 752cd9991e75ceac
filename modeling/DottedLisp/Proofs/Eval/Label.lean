import DottedLisp.Proofs.Eval.Limit

/-!
# Calling a label form

A label form binds its name to its procedure and calls the name. The call goes through the
evaluation of a pair with an atom as its head, and there a look-up comes last: primitives and the
heads of procedure forms come first. No label form has the name of a primitive. One with the name
`label` or `lambda` is in order, but its call is a procedure form, which is its own value, and the
binding is never looked up.

For every other name the binding in front is what the look-up finds, so the call applies the
procedure (`evaluateWith_bound_call`).
-/

namespace DottedLisp

variable {eval : Evaluator} {env : Env}

/-- **A call of the name that is bound in front applies what it is bound to.** -/
theorem evaluateWith_bound_call {name : Atom} (hname : name.isForm = false)
    (procedure args : Expr) :
    evaluateWith eval (.pair (.atom name) args) (env.bind name procedure) =
      Procedure.apply eval procedure args (env.bind name procedure) := by
  have hfound : (env.bind name procedure).lookup name = .ok procedure := by simp [Env.lookup_bind]
  rw [evaluateWith_call hname, hfound]
  rfl

theorem Label.result_apply {rest procedure : Expr} {name : Atom}
    (h : parts rest = .ok (name, procedure)) (args : Expr) : (apply eval rest args env).result =
      (eval (.pair (.atom name) args) (env.bind name procedure)).result := by
  unfold apply
  rw [h, Run.result_bind]
  rfl

theorem Label.isForm_of_parts {rest procedure : Expr} {name : Atom}
    (h : parts rest = .ok (name, procedure))
    (hhead : ∀ form : Procedure, name ≠ form.head) : name.isForm = false := by
  have hprimitive := (parts_eq_ok_iff.mp h).2
  have hprocedure : Procedure.ofAtom? name = none := by
    cases hfound : Procedure.ofAtom? name with
    | none => rfl
    | some form => exact absurd (Procedure.head_of_ofAtom? hfound).symm (hhead form)
  simp [Atom.isForm, hprimitive, hprocedure]

/-- Applying a label form and evaluating the call of its name take one level each. -/
theorem result_evaluate_label {rest procedure : Expr} {name : Atom}
    (h : Label.parts rest = .ok (name, procedure)) (limit : Nat) (args : Expr) :
    (evaluate (limit + 2) (.pair (.pair (.atom Procedure.label.head) rest) args) env).result =
      (evaluateWith (evaluate limit) (.pair (.atom name) args)
        (env.bind name procedure)).result := by
  show (Procedure.apply (evaluate (limit + 1))
    (.pair (.atom Procedure.label.head) rest) args env).result = _
  rw [Procedure.apply_label, Label.result_apply h]
  rfl

theorem result_evaluate_label_one {rest procedure : Expr} {name : Atom}
    (h : Label.parts rest = .ok (name, procedure)) (args : Expr) :
    (evaluate 1 (.pair (.pair (.atom Procedure.label.head) rest) args) env).result =
      .error .tooDeep := by
  show (Procedure.apply (evaluate 0) (.pair (.atom Procedure.label.head) rest) args env).result = _
  rw [Procedure.apply_label, Label.result_apply h]
  rfl

/-- **Applying a procedure gives the same with more depth,** unless it ends at the limit. -/
theorem Procedure.result_apply_of_le {limit limit' : Nat} (h : limit ≤ limit')
    {procedure args : Expr}
    (hend : (apply (evaluate limit) procedure args env).result ≠ .error .tooDeep) :
    (apply (evaluate limit') procedure args env).result =
      (apply (evaluate limit) procedure args env).result := by
  have hruns : Simulation.deeper.Runs (Expr.Like Eq) (apply (evaluate limit) procedure args env)
      (apply (evaluate limit') procedure args env) :=
    Simulation.runs_procedure (evaluators_evaluate h) rfl (.refl procedure) (.refl args)
  rcases hruns.result_eq_or_forgiven Expr.Like.eq id with heq | ⟨f, hf, hdeep⟩
  · exact heq
  · obtain rfl : f = .tooDeep := hdeep
    exact absurd hf hend

/-- **Calling a label form applies its procedure, with the name bound to it.** This holds for every
name but `label` and `lambda`: the call ends as applying the procedure does, with two levels more,
and under one limit both end the same unless the call ends at the limit. A form with one of these
two names gives back the call of its name as a procedure, if that is in order, whatever its own
procedure is. -/
theorem evaluate_label_call {rest procedure : Expr} {name : Atom}
    (h : Label.parts rest = .ok (name, procedure)) (args : Expr) (env : Env) :
    let call : Expr := .pair (.pair (.atom Procedure.label.head) rest) args
    ((∀ form : Procedure, name ≠ form.head) →
      (∀ limit, (evaluate (limit + 2) call env).result =
        (Procedure.apply (evaluate limit) procedure args (env.bind name procedure)).result) ∧
      ∀ limit, (evaluate limit call env).result ≠ .error .tooDeep →
        (Procedure.apply (evaluate limit) procedure args (env.bind name procedure)).result =
          (evaluate limit call env).result) ∧
    ∀ form : Procedure, name = form.head → ∀ limit,
      (evaluate (limit + 2) call env).result =
        (Procedure.value (.atom name) args).mapError .error := by
  intro call
  constructor
  · intro hhead
    have hcall : ∀ limit, (evaluate (limit + 2) call env).result =
        (Procedure.apply (evaluate limit) procedure args (env.bind name procedure)).result := by
      intro limit
      rw [result_evaluate_label h, evaluateWith_bound_call (Label.isForm_of_parts h hhead)]
    refine ⟨hcall, fun limit hend => ?_⟩
    match limit with
    | 0 => exact absurd rfl hend
    | 1 => exact absurd (result_evaluate_label_one h args) hend
    | limit + 2 =>
      rw [hcall] at hend ⊢
      exact Procedure.result_apply_of_le (Nat.le_add_right limit 2) hend
  · rintro form rfl limit
    rw [result_evaluate_label h, evaluateWith_procedure]
    rfl

/-- A procedure that goes down first components until it comes to an atom, called on
`((t.nil).nil)`. -/
theorem evaluate_label_call_recursive :
    let ff : Atom := ⟨text "ff", by decide⟩
    let x : Expr := .atom ⟨text "x", by decide⟩
    let again : Expr := .pair (.atom ff) (.pair (.pair (.atom Primitive.car.name) x) Expr.nil)
    let clauses : Expr := .pair (.pair (.pair (.atom Primitive.atom.name) x) x)
      (.pair (.pair Expr.t again) Expr.nil)
    let procedure : Expr := .pair (.atom Procedure.lambda.head)
      (.pair (.pair x Expr.nil) (.pair (.atom Primitive.cond.name) clauses))
    let rest : Expr := .pair (.atom ff) procedure
    let args : Expr := .pair (.pair (.atom Primitive.quote.name)
      (.pair (.pair Expr.t Expr.nil) Expr.nil)) Expr.nil
    Label.parts rest = .ok (ff, procedure) ∧ (∀ form : Procedure, ff ≠ form.head) ∧
      (evaluate 12 (.pair (.pair (.atom Procedure.label.head) rest) args) Env.initial).result =
        .ok Expr.t ∧
      (Procedure.apply (evaluate 10) procedure args (Env.initial.bind ff procedure)).result =
        .ok Expr.t := by
  intro ff x again clauses procedure rest args
  have hparts : Label.parts rest = .ok (ff, procedure) := by decide +kernel
  have hhead : ∀ form : Procedure, ff ≠ form.head := by
    intro form
    cases form <;> decide
  have hvalue :
      (evaluate 12 (.pair (.pair (.atom Procedure.label.head) rest) args) Env.initial).result =
        .ok Expr.t := by
    decide +kernel
  have hcall := ((evaluate_label_call hparts args Env.initial).1 hhead).1 10
  exact ⟨hparts, hhead, hvalue, hcall.symm.trans hvalue⟩

/-- A label form with the name `lambda` does not apply its procedure: under every limit that is deep
enough, the call gives back the call of the name, and applying the procedure gives something
else. -/
theorem evaluate_label_call_lambda :
    let procedure : Expr := .atom Primitive.car.name
    let rest : Expr := .pair (.atom Procedure.lambda.head) procedure
    let args : Expr := .pair (.atom Primitive.quote.name) (.pair Expr.t Expr.nil)
    Label.parts rest = .ok (Procedure.lambda.head, procedure) ∧ ∀ limit,
      (evaluate (limit + 2)
        (.pair (.pair (.atom Procedure.label.head) rest) args) Env.initial).result =
        .ok (.pair (.atom Procedure.lambda.head) args) ∧
      (Procedure.apply (evaluate (limit + 1)) procedure args
        (Env.initial.bind Procedure.lambda.head procedure)).result = .ok Expr.t := by
  intro procedure rest args
  have hparts : Label.parts rest = .ok (Procedure.lambda.head, procedure) := by decide +kernel
  refine ⟨hparts, fun limit => ⟨?_, rfl⟩⟩
  rw [result_evaluate_label hparts, evaluateWith_procedure]
  rfl

end DottedLisp
