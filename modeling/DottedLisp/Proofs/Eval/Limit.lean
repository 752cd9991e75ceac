import DottedLisp.Proofs.Eval.Simulation

/-!
# More depth

An evaluation that comes to its end within a limit comes to the same end within every larger one, be
it a value or an error (`evaluate_eq_of_le`). The limit decides whether there is an answer, never
which.
-/

namespace DottedLisp

namespace Expr

theorem Like.refl : (e : Expr) → e.Like Eq e
  | .atom _ => .atom rfl
  | .pair x y => .pair (refl x) (refl y)

theorem Like.eq {e e' : Expr} (h : e.Like Eq e') : e = e' := by
  induction h with
  | atom h => rw [h]
  | pair _ _ hx hy => rw [hx, hy]

end Expr

theorem Error.Like.eq {e e' : Error} (h : e.Like Eq e') : e = e' := by
  cases h with
  | improperList _ h => rw [h]
  | arity wanted got => rfl
  | parameterNotAtom h => rw [h.eq]
  | operandsExpected p h => rw [h.eq]
  | notAList p h => rw [h.eq]
  | clauseNotAList h => rw [h.eq]
  | malformedProcedure form h => rw [h.eq]
  | labelNotAtom h => rw [h.eq]
  | labelPrimitive h => rw [h]
  | notAFunction h => rw [h]
  | noRule h => rw [h.eq]

namespace Simulation

/-- One evaluation twice, the second time with more depth. -/
def deeper : Simulation where
  Names := Eq
  Envs := Eq
  Failures := Eq
  Forgiven e := e = .tooDeep
  eq_iff_eq := by
    rintro a _ a' _ rfl rfl
    rfl
  names_t := rfl
  names_nil := rfl
  primitive_eq := congrArg _
  procedure_eq := congrArg _
  envs_bind := by
    rintro x _ v w env _ rfl hvw rfl
    rw [hvw.eq]
  lookup_ok := by
    rintro x _ v env _ rfl rfl hv
    exact ⟨v, hv, .refl v⟩
  lookup_error := by
    rintro x _ e env _ rfl rfl he
    exact .inr ⟨e, he, rfl⟩
  failures_error h := congrArg _ h.eq

/-- Evaluations that differ in their environments and failures, not in the names. -/
def sameNames (Envs : Env → Env → Prop) (Failures : Failure → Failure → Prop)
    (Forgiven : Failure → Prop)
    (envs_bind : ∀ {x v env env'}, Envs env env' → Envs (env.bind x v) (env'.bind x v))
    (lookup_ok : ∀ {x v env env'}, Envs env env' → env.lookup x = .ok v → env'.lookup x = .ok v)
    (lookup_error : ∀ {x e env env'}, Envs env env' → env.lookup x = .error e →
      Forgiven (.error e) ∨ ∃ e', env'.lookup x = .error e' ∧ Failures (.error e) (.error e'))
    (failures_error : ∀ {e}, Error.Like Eq e e → Failures (.error e) (.error e)) : Simulation where
  Names := Eq
  Envs := Envs
  Failures := Failures
  Forgiven := Forgiven
  eq_iff_eq := by
    rintro a _ a' _ rfl rfl
    rfl
  names_t := rfl
  names_nil := rfl
  primitive_eq := congrArg _
  procedure_eq := congrArg _
  envs_bind := by
    rintro x _ v w env env' rfl hvw henv
    rw [← hvw.eq]
    exact envs_bind henv
  lookup_ok := by
    rintro x _ v env env' rfl henv hv
    exact ⟨v, lookup_ok henv hv, .refl v⟩
  lookup_error := by
    rintro x _ e env env' rfl henv he
    exact lookup_error henv he
  failures_error := by
    intro e e' h
    obtain rfl := h.eq
    exact failures_error h

variable {S : Simulation}

/-- **Where running out of depth is forgiven, the second evaluation may go deeper.** -/
theorem evaluators_evaluate_of_le (hdeep : S.Forgiven .tooDeep) {limit limit' : Nat}
    (h : limit ≤ limit') :
    S.Evaluators (evaluate limit) (evaluate limit') := by
  induction limit generalizing limit' with
  | zero => exact fun _ _ => runs_of_forgiven rfl hdeep
  | succ limit ih =>
    cases limit' with
    | zero => cases h
    | succ limit' => exact evaluators_evaluateWith (ih (Nat.le_of_succ_le_succ h))

/-- **With one limit for both, evaluations go together as long as running out of depth together is
right.** -/
theorem evaluators_evaluate_same (hdeep : S.Forgiven .tooDeep ∨ S.Failures .tooDeep .tooDeep)
    (limit : Nat) : S.Evaluators (evaluate limit) (evaluate limit) := by
  induction limit with
  | zero => exact fun _ _ => hdeep
  | succ limit ih => exact evaluators_evaluateWith ih

theorem Runs.exists_ok {α β : Type} {R : α → β → Prop} {x : Run Failure α}
    {y : Run Failure β} {a : α}
    (h : S.Runs R x y) (hx : x.result = .ok a) : ∃ b, y.result = .ok b ∧ R a b := by
  unfold Runs at h
  rw [hx] at h
  cases hy : y.result with
  | ok b => exact ⟨b, rfl, by rwa [hy] at h⟩
  | error e => rw [hy] at h; cases h

theorem Runs.exists_error {α β : Type} {R : α → β → Prop} {x : Run Failure α} {y : Run Failure β}
    {f : Failure} (h : S.Runs R x y) (hf : ¬S.Forgiven f) (hx : x.result = .error f) :
    ∃ f', y.result = .error f' ∧ S.Failures f f' := by
  unfold Runs at h
  rw [hx] at h
  cases hy : y.result with
  | ok b =>
    rw [hy] at h
    exact absurd h hf
  | error f' =>
    rw [hy] at h
    exact ⟨f', rfl, h.resolve_left hf⟩

/-- **Where all that is related is equal, runs that end alike end the same,** unless the failure of
the first one is forgiven. -/
theorem Runs.result_eq_or_forgiven {α : Type} {R : α → α → Prop} {x y : Run Failure α}
    (h : S.Runs R x y)
    (hvalues : ∀ {a b}, R a b → a = b) (hfailures : ∀ {e e'}, S.Failures e e' → e = e') :
    y.result = x.result ∨ ∃ f, x.result = .error f ∧ S.Forgiven f := by
  cases hx : x.result with
  | ok v =>
    obtain ⟨w, hw, hvw⟩ := h.exists_ok hx
    exact .inl (by rw [hw, hvalues hvw])
  | error f =>
    by_cases hf : S.Forgiven f
    · exact .inr ⟨f, rfl, hf⟩
    · obtain ⟨f', hf', hff'⟩ := h.exists_error hf hx
      exact .inl (by rw [hf', hfailures hff'])

/-- Where in addition nothing is forgiven, they always end the same. -/
theorem Runs.result_eq {α : Type} {R : α → α → Prop} {x y : Run Failure α} (h : S.Runs R x y)
    (hvalues : ∀ {a b}, R a b → a = b) (hfailures : ∀ {e e'}, S.Failures e e' → e = e')
    (hforgiven : ∀ e, ¬S.Forgiven e) : x.result = y.result := by
  rcases h.result_eq_or_forgiven hvalues hfailures with heq | ⟨f, _, hf⟩
  · exact heq.symm
  · exact absurd hf (hforgiven f)

end Simulation

theorem evaluators_evaluate {limit limit' : Nat} (h : limit ≤ limit') :
    Simulation.deeper.Evaluators (evaluate limit) (evaluate limit') :=
  Simulation.evaluators_evaluate_of_le rfl h

variable {limit limit' : Nat} {env : Env} {v : Expr}

/-- **A value stays with more depth.** -/
theorem evaluate_eq_ok_of_le (h : limit ≤ limit') {e : Expr}
    (hv : (evaluate limit e env).result = .ok v) : (evaluate limit' e env).result = .ok v := by
  obtain ⟨w, hw, hvw⟩ := (evaluators_evaluate h (.refl e) rfl).exists_ok hv
  rwa [hvw.eq]

/-- **An error stays with more depth.** -/
theorem evaluate_eq_error_of_le (h : limit ≤ limit') {e : Expr} {f : Failure} (hf : f ≠ .tooDeep)
    (herror : (evaluate limit e env).result = .error f) :
    (evaluate limit' e env).result = .error f := by
  obtain ⟨f', hf', hff'⟩ := (evaluators_evaluate h (.refl e) rfl).exists_error hf herror
  have heq : f = f' := hff'
  rwa [heq]

/-- **More depth only turns failures at the limit into answers.** An evaluation that does not end at
the limit ends in the same way, with the same value or the same error, under every larger limit. -/
theorem evaluate_eq_of_le (h : limit ≤ limit') {e : Expr} {env : Env}
    (hend : (evaluate limit e env).result ≠ .error .tooDeep) :
    (evaluate limit' e env).result = (evaluate limit e env).result := by
  cases hrun : (evaluate limit e env).result with
  | ok v => exact evaluate_eq_ok_of_le h hrun
  | error f =>
    have hf : f ≠ .tooDeep := by
      rintro rfl
      exact hend hrun
    exact evaluate_eq_error_of_le h hf hrun

/-- Two levels are not enough to take the end of a list apart; three are, and then it stays
refused. -/
theorem evaluate_eq_of_le_refused :
    let e : Expr := .pair (.atom Primitive.car.name) (.pair (.atom Primitive.cdr.name)
      (.pair (.atom Primitive.quote.name) (.pair Expr.t Expr.nil)))
    (evaluate 2 e Env.initial).result = .error .tooDeep ∧ 3 ≤ 1000 ∧
      (evaluate 3 e Env.initial).result ≠ .error .tooDeep ∧
      (evaluate 1000 e Env.initial).result = .error (.error (.notAList .car Expr.nil)) := by
  intro e
  have hle : 3 ≤ 1000 := by decide
  have hrefused : (evaluate 3 e Env.initial).result =
      .error (.error (.notAList .car Expr.nil)) := by
    decide +kernel
  have hend : (evaluate 3 e Env.initial).result ≠ .error .tooDeep := by
    rw [hrefused]
    decide
  exact ⟨by decide +kernel, hle, hend, (evaluate_eq_of_le hle hend).trans hrefused⟩

/-- **Under all limits under which an evaluation comes to an end, it is the same end.** -/
theorem evaluate_eq_of_ends {e : Expr} (h : (evaluate limit e env).result ≠ .error .tooDeep)
    (h' : (evaluate limit' e env).result ≠ .error .tooDeep) :
    (evaluate limit e env).result = (evaluate limit' e env).result := by
  wlog hle : limit ≤ limit' generalizing limit limit'
  · exact (this h' h (Nat.le_of_not_le hle)).symm
  · rcases (evaluators_evaluate hle (.refl e) rfl).result_eq_or_forgiven Expr.Like.eq id with
      heq | ⟨f, hf, hdeep⟩
    · exact heq.symm
    · obtain rfl : f = .tooDeep := hdeep
      exact absurd hf h

theorem chooseClause_eq_ok_of_le (h : limit ≤ limit') {clauses : List Expr}
    (hv : (Primitive.chooseClause (evaluate limit) env clauses).result = .ok v) :
    (Primitive.chooseClause (evaluate limit') env clauses).result = .ok v := by
  have hclauses : List.Forall₂ (Expr.Like Eq) clauses clauses :=
    List.forall₂_same.mpr fun x _ => .refl x
  obtain ⟨w, hw, hvw⟩ :=
    (Simulation.runs_chooseClause (evaluators_evaluate h) rfl hclauses).exists_ok hv
  rwa [hvw.eq]

end DottedLisp
