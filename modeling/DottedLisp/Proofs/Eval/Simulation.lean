import DottedLisp.Proofs.Eval.Outcome

/-!
# Evaluations side by side

A `Simulation` says how two evaluations may differ: in the names they use, in what their
environments answer, and in how they fail. It holds what the evaluator has to know about these
differences, and `Simulation.evaluators_evaluateWith` is the one walk through the evaluator: where
the evaluators for the subexpressions go together, so do the evaluations. That more depth changes no
answer is an instance.
-/

namespace DottedLisp

/-- Expressions of one shape, with related names at the leaves. -/
inductive Expr.Like (names : Atom → Atom → Prop) : Expr → Expr → Prop where
  | atom {a b : Atom} : names a b → Like names (.atom a) (.atom b)
  | pair {x y x' y' : Expr} :
    Like names x x' → Like names y y' → Like names (.pair x y) (.pair x' y')

/-- The lists that evaluation goes through, as its errors name them. -/
def listNames : List Text := [text "cond clause list", text "argument list", text "parameter list"]

/-- The refusals of evaluation itself, for one cause and about expressions alike. Look-ups are not
among them: what they refuse is a matter of the environments. -/
inductive Error.Like (names : Atom → Atom → Prop) : Error → Error → Prop where
  | improperList {what : Text} {a b : Atom} :
    what ∈ listNames → names a b → Like names (.improperList what a) (.improperList what b)
  | arity (wanted got : Nat) : Like names (.arity wanted got) (.arity wanted got)
  | parameterNotAtom {x y : Expr} :
    Expr.Like names x y → Like names (.parameterNotAtom x) (.parameterNotAtom y)
  | operandsExpected (p : Primitive) {x y : Expr} :
    Expr.Like names x y → Like names (.operandsExpected p x) (.operandsExpected p y)
  | notAList (p : Primitive) {x y : Expr} :
    Expr.Like names x y → Like names (.notAList p x) (.notAList p y)
  | clauseNotAList {x y : Expr} :
    Expr.Like names x y → Like names (.clauseNotAList x) (.clauseNotAList y)
  | malformedProcedure (form : Procedure) {x y : Expr} :
    Expr.Like names x y → Like names (.malformedProcedure form x) (.malformedProcedure form y)
  | labelNotAtom {x y : Expr} :
    Expr.Like names x y → Like names (.labelNotAtom x) (.labelNotAtom y)
  | labelPrimitive {a b : Atom} : names a b → Like names (.labelPrimitive a) (.labelPrimitive b)
  | notAFunction {a b : Atom} : names a b → Like names (.notAFunction a) (.notAFunction b)
  | noRule {x y : Expr} : Expr.Like names x y → Like names (.noRule x) (.noRule y)

/-- How two evaluations may differ. -/
structure Simulation where
  Names : Atom → Atom → Prop
  Envs : Env → Env → Prop
  /-- Failures of the second evaluation that answer to a failure of the first. -/
  Failures : Failure → Failure → Prop
  /-- Failures of the first evaluation after which nothing is asked of the second. -/
  Forgiven : Failure → Prop
  eq_iff_eq {a b a' b' : Atom} : Names a b → Names a' b' → (a = a' ↔ b = b')
  names_t : Names Atom.t Atom.t
  names_nil : Names Atom.nil Atom.nil
  primitive_eq {a b : Atom} : Names a b → Primitive.ofAtom? a = Primitive.ofAtom? b
  procedure_eq {a b : Atom} : Names a b → Procedure.ofAtom? a = Procedure.ofAtom? b
  envs_bind {x y : Atom} {v w : Expr} {env env' : Env} :
    Names x y → Expr.Like Names v w → Envs env env' → Envs (env.bind x v) (env'.bind y w)
  lookup_ok {x y : Atom} {v : Expr} {env env' : Env} : Names x y → Envs env env' →
    env.lookup x = .ok v → ∃ w, env'.lookup y = .ok w ∧ Expr.Like Names v w
  lookup_error {x y : Atom} {e : Error} {env env' : Env} : Names x y → Envs env env' →
    env.lookup x = .error e →
      Forgiven (.error e) ∨ ∃ e', env'.lookup y = .error e' ∧ Failures (.error e) (.error e')
  failures_error {e e' : Error} : Error.Like Names e e' → Failures (.error e) (.error e')

namespace Simulation

variable (S : Simulation) {α β γ δ : Type} {R : α → β → Prop} {Q : γ → δ → Prop}

/-- Runs that end alike: with related values, with related failures, or the first one with a failure
that is forgiven. -/
def Runs (R : α → β → Prop) (x : Run Failure α) (y : Run Failure β) : Prop :=
  match x.result, y.result with
  | .ok a, .ok b => R a b
  | .ok _, .error _ => False
  | .error e, .ok _ => S.Forgiven e
  | .error e, .error e' => S.Forgiven e ∨ S.Failures e e'

/-- Evaluators that take related expressions in related environments to related values. -/
def Evaluators (eval eval' : Evaluator) : Prop :=
  ∀ {e e' : Expr} {env env' : Env}, e.Like S.Names e' → S.Envs env env' →
    S.Runs (Expr.Like S.Names) (eval e env) (eval' e' env')

/-! ## Composing runs -/

variable {S} {eval eval' : Evaluator} {env env' : Env}

/-- Nothing is asked of the second run when the failure of the first is forgiven. -/
theorem runs_of_forgiven {x : Run Failure α} {y : Run Failure β} {e : Failure}
    (hx : x.result = .error e) (he : S.Forgiven e) : S.Runs R x y := by
  unfold Runs
  rw [hx]
  cases y.result with
  | ok b => exact he
  | error e' => exact .inl he

theorem runs_pure {a : α} {b : β} (h : R a b) : S.Runs R (pure a) (pure b) := h

theorem runs_bind {x : Run Failure α} {y : Run Failure β} {f : α → Run Failure γ}
    {g : β → Run Failure δ} (h : S.Runs R x y) (hfg : ∀ {a b}, R a b → S.Runs Q (f a) (g b)) :
    S.Runs Q (x >>= f) (y >>= g) := by
  cases hx : x.result with
  | ok a =>
    cases hy : y.result with
    | ok b =>
      have hab : R a b := by simpa [Runs, hx, hy] using h
      simpa [Runs, hx, hy, Except.bind] using hfg hab
    | error e' => simp [Runs, hx, hy] at h
  | error e =>
    -- if the second run has a value here, it goes on alone
    have hxf : (x >>= f).result = .error e := by simp [hx, Except.bind]
    cases hy : y.result with
    | ok b =>
      have he : S.Forgiven e := by simpa [Runs, hx, hy] using h
      exact runs_of_forgiven hxf he
    | error e' => simpa [Runs, hx, hy, Except.bind] using h

theorem runs_note_bind {n m : Note} {f : Unit → Run Failure α} {g : Unit → Run Failure β}
    (h : S.Runs R (f ()) (g ())) : S.Runs R (Run.note n >>= f) (Run.note m >>= g) := h

theorem runs_refuse {e e' : Error} (h : e.Like S.Names e') :
    S.Runs R (Run.refuse e) (Run.refuse e') :=
  .inr (S.failures_error h)

theorem runs_lift_error {e e' : Error} (h : e.Like S.Names e') :
    S.Runs R (liftM (.error e : Except Error α)) (liftM (.error e' : Except Error β)) :=
  .inr (S.failures_error h)

theorem runs_lift_ok {a : α} {b : β} (h : R a b) :
    S.Runs R (liftM (.ok a : Except Error α)) (liftM (.ok b : Except Error β)) := h

theorem runs_lift_bind {r : Except Error α} {r' : Except Error β} {f : α → Except Error γ}
    {g : β → Except Error δ} (h : S.Runs R (liftM r) (liftM r'))
    (hfg : ∀ {a b}, R a b → S.Runs Q (liftM (f a)) (liftM (g b))) :
    S.Runs Q (liftM (r >>= f)) (liftM (r' >>= g)) := by
  rw [Run.lift_bind, Run.lift_bind]
  exact runs_bind h hfg

theorem runs_mapM {f : α → Run Failure γ} {g : β → Run Failure δ} {xs : List α} {ys : List β}
    (h : List.Forall₂ R xs ys) (hfg : ∀ {a b}, R a b → S.Runs Q (f a) (g b)) :
    S.Runs (List.Forall₂ Q) (xs.mapM f) (ys.mapM g) := by
  induction h with
  | nil => exact runs_pure .nil
  | cons hab _ ih =>
    rw [List.mapM_cons, List.mapM_cons]
    refine runs_bind (hfg hab) fun hcd => ?_
    exact runs_bind ih fun hrest => runs_pure (.cons hcd hrest)

theorem runs_lookup {x y : Atom} (hxy : S.Names x y) (henv : S.Envs env env') :
    S.Runs (Expr.Like S.Names) (liftM (env.lookup x)) (liftM (env'.lookup y)) := by
  cases hx : env.lookup x with
  | ok v =>
    obtain ⟨w, hy, hvw⟩ := S.lookup_ok hxy henv hx
    rw [hy]
    exact runs_lift_ok hvw
  | error e =>
    obtain he | ⟨e', hy, he⟩ := S.lookup_error hxy henv hx
    · exact runs_of_forgiven rfl he
    · rw [hy]
      exact .inr he

/-! ## Expressions alike -/

theorem like_truth (b : Bool) : (Expr.truth b).Like S.Names (Expr.truth b) := by
  cases b with
  | false => exact .atom S.names_nil
  | true => exact .atom S.names_t

theorem eq_nil_iff {v w : Expr} (h : v.Like S.Names w) : v = Expr.nil ↔ w = Expr.nil := by
  cases h with
  | atom h => simpa [Expr.nil] using S.eq_iff_eq h S.names_nil
  | pair _ _ => simp [Expr.nil]

theorem isAtom_eq {v w : Expr} (h : v.Like S.Names w) : v.isAtom = w.isAtom := by
  cases h <;> rfl

theorem sameAtom_eq {v w v' w' : Expr} (h : v.Like S.Names w) (h' : v'.Like S.Names w') :
    Primitive.sameAtom v v' = Primitive.sameAtom w w' := by
  cases h with
  | pair _ _ => rfl
  | atom h =>
    cases h' with
    | pair _ _ => rfl
    | atom h' => simpa [Primitive.sameAtom] using S.eq_iff_eq h h'

theorem like_ofList {vs ws : List Expr} (h : List.Forall₂ (Expr.Like S.Names) vs ws) :
    (Expr.ofList vs).Like S.Names (Expr.ofList ws) := by
  induction h with
  | nil => exact .atom S.names_nil
  | cons hvw _ ih => exact .pair hvw ih

theorem forall₂_elements {v w : Expr} (h : v.Like S.Names w) :
    List.Forall₂ (Expr.Like S.Names) v.elements w.elements := by
  induction h with
  | atom _ => exact .nil
  | pair hx _ _ ih => exact .cons hx ih

theorem names_terminator {v w : Expr} (h : v.Like S.Names w) :
    S.Names v.terminator w.terminator := by
  induction h with
  | atom h => exact h
  | pair _ _ _ ih => exact ih

theorem runs_toList {what : Text} (hwhat : what ∈ listNames) {v w : Expr} (h : v.Like S.Names w) :
    S.Runs (List.Forall₂ (Expr.Like S.Names)) (liftM (v.toList what)) (liftM (w.toList what)) := by
  have hnil := S.eq_iff_eq (names_terminator h) S.names_nil
  unfold Expr.toList
  by_cases hv : v.terminator = Atom.nil
  · rw [if_pos hv, if_pos (hnil.mp hv)]
    exact runs_lift_ok (forall₂_elements h)
  · rw [if_neg hv, if_neg (mt hnil.mpr hv)]
    exact runs_lift_error (.improperList hwhat (names_terminator h))

/-- Pairs alike in both components. -/
def Pairs (S : Simulation) (p q : Expr × Expr) : Prop :=
  p.1.Like S.Names q.1 ∧ p.2.Like S.Names q.2

/-- Taking a pair apart and refusing atoms. -/
theorem runs_split {split : Expr → Except Error (Expr × Expr)} {refusal : Expr → Error}
    (hpair : ∀ x y, split (.pair x y) = .ok (x, y))
    (hatom : ∀ a, split (.atom a) = .error (refusal (.atom a)))
    (hrefusal : ∀ {v w : Expr}, v.Like S.Names w → (refusal v).Like S.Names (refusal w))
    {v w : Expr} (h : v.Like S.Names w) : S.Runs S.Pairs (liftM (split v)) (liftM (split w)) := by
  cases h with
  | atom h =>
    rw [hatom, hatom]
    exact runs_lift_error (hrefusal (.atom h))
  | pair hx hy =>
    rw [hpair, hpair]
    exact runs_lift_ok ⟨hx, hy⟩

theorem runs_operands (p : Primitive) {v w : Expr} (h : v.Like S.Names w) :
    S.Runs S.Pairs (liftM (p.operands v)) (liftM (p.operands w)) :=
  runs_split (fun _ _ => rfl) (fun _ => rfl) (.operandsExpected p) h

theorem runs_components (p : Primitive) {v w : Expr} (h : v.Like S.Names w) :
    S.Runs S.Pairs (liftM (p.components v)) (liftM (p.components w)) :=
  runs_split (fun _ _ => rfl) (fun _ => rfl) (.notAList p) h

theorem runs_parts (form : Procedure) {v w : Expr} (h : v.Like S.Names w) :
    S.Runs S.Pairs (liftM (form.parts v)) (liftM (form.parts w)) :=
  runs_split (fun _ _ => rfl) (fun _ => rfl) (.malformedProcedure form) h

/-! ## The parts of the evaluator -/

theorem runs_chooseClause (heval : S.Evaluators eval eval') (henv : S.Envs env env')
    {clauses clauses' : List Expr} (h : List.Forall₂ (Expr.Like S.Names) clauses clauses') :
    S.Runs (Expr.Like S.Names) (Primitive.chooseClause eval env clauses)
      (Primitive.chooseClause eval' env' clauses') := by
  induction h with
  | nil => exact runs_pure (.atom S.names_nil)
  | cons hclause _ ih =>
    cases hclause with
    | atom h => exact runs_refuse (.clauseNotAList (.atom h))
    | pair hpredicate hvalue =>
      -- predicates alike are both nil or both not, so the same clause is chosen
      refine runs_bind (heval hpredicate henv) fun {holds holds'} h => ?_
      by_cases hnil : holds = Expr.nil
      · rw [if_pos hnil, if_pos ((eq_nil_iff h).mp hnil)]
        exact ih
      · rw [if_neg hnil, if_neg (mt (eq_nil_iff h).mpr hnil)]
        exact heval hvalue henv

theorem runs_primitive (heval : S.Evaluators eval eval') (henv : S.Envs env env') (p : Primitive)
    {tail tail' : Expr} (h : tail.Like S.Names tail') :
    S.Runs (Expr.Like S.Names) (p.apply eval tail env) (p.apply eval' tail' env') := by
  cases p with
  | quote => exact runs_pure h
  | atom =>
    refine runs_bind (heval h henv) fun hvalue => runs_pure ?_
    rw [isAtom_eq hvalue]
    exact like_truth _
  | eq =>
    refine runs_bind (runs_operands .eq h) fun hoperands => ?_
    refine runs_bind (heval hoperands.1 henv) fun hx => ?_
    refine runs_bind (heval hoperands.2 henv) fun hy => runs_pure ?_
    rw [sameAtom_eq hx hy]
    exact like_truth _
  | car =>
    refine runs_bind (heval h henv) fun hvalue => ?_
    exact runs_bind (runs_components .car hvalue) fun hparts => runs_pure hparts.1
  | cdr =>
    refine runs_bind (heval h henv) fun hvalue => ?_
    exact runs_bind (runs_components .cdr hvalue) fun hparts => runs_pure hparts.2
  | cons =>
    refine runs_bind (runs_operands .cons h) fun hoperands => ?_
    refine runs_bind (heval hoperands.1 henv) fun hx => ?_
    exact runs_bind (heval hoperands.2 henv) fun hy => runs_pure (.pair hx hy)
  | cond => exact runs_bind (runs_toList (by simp [listNames]) h) (runs_chooseClause heval henv)

theorem runs_labelParts {rest rest' : Expr} (h : rest.Like S.Names rest') :
    S.Runs (fun p q => S.Names p.1 q.1 ∧ p.2.Like S.Names q.2)
      (liftM (Label.parts rest)) (liftM (Label.parts rest')) := by
  cases h with
  | atom h => exact runs_lift_error (.malformedProcedure .label (.atom h))
  | pair hname hprocedure =>
    cases hname with
    | pair hx hy => exact runs_lift_error (.labelNotAtom (.pair hx hy))
    | atom hname =>
      rw [Label.parts_pair_atom, Label.parts_pair_atom, S.primitive_eq hname]
      split
      · exact runs_lift_error (.labelPrimitive hname)
      · exact runs_lift_ok ⟨hname, hprocedure⟩

theorem runs_label (heval : S.Evaluators eval eval') (henv : S.Envs env env')
    {rest rest' args args' : Expr}
    (hrest : rest.Like S.Names rest') (hargs : args.Like S.Names args') :
    S.Runs (Expr.Like S.Names) (Label.apply eval rest args env)
      (Label.apply eval' rest' args' env') := by
  refine runs_bind (runs_labelParts hrest) fun hparts => runs_note_bind ?_
  exact heval (.pair (.atom hparts.1) hargs) (S.envs_bind hparts.1 hparts.2 henv)

theorem runs_arguments (heval : S.Evaluators eval eval') (henv : S.Envs env env')
    {args args' : Expr} (hargs : args.Like S.Names args') :
    S.Runs (Expr.Like S.Names) (Lambda.arguments eval args env)
      (Lambda.arguments eval' args' env') := by
  refine runs_bind (runs_toList (by simp [listNames]) hargs) fun hargs => ?_
  refine runs_bind (runs_mapM hargs fun harg => heval harg henv) fun hvalues => ?_
  exact runs_pure (like_ofList hvalues)

/-- Bindings of related names to values alike. -/
def Bindings (S : Simulation) (bindings bindings' : List Expr) : Prop :=
  List.Forall₂ (fun b b' => ∃ x y v w, b = .pair (.atom x) v ∧ b' = .pair (.atom y) w ∧
    S.Names x y ∧ v.Like S.Names w) bindings bindings'

theorem envs_ofList {bindings bindings' : List Expr} (h : S.Bindings bindings bindings')
    (henv : S.Envs env env') : S.Envs (Expr.ofList bindings env) (Expr.ofList bindings' env') := by
  induction h with
  | nil => exact henv
  | cons hb _ ih =>
    obtain ⟨x, y, v, w, rfl, rfl, hxy, hvw⟩ := hb
    exact S.envs_bind hxy hvw ih

theorem runs_bindEach {names names' values values' : List Expr}
    (hnames : List.Forall₂ (Expr.Like S.Names) names names')
    (hvalues : List.Forall₂ (Expr.Like S.Names) values values') :
    S.Runs S.Bindings (liftM (Env.bindEach names values))
      (liftM (Env.bindEach names' values')) := by
  induction hnames generalizing values values' with
  | nil => exact runs_lift_ok .nil
  | cons hname _ ih =>
    cases hvalues with
    | nil => cases hname <;> exact runs_lift_ok .nil
    | cons hvalue hvalues =>
      cases hname with
      | pair hx hy => exact runs_lift_error (.parameterNotAtom (.pair hx hy))
      | atom hname =>
        refine runs_lift_bind (ih hvalues) fun hrest => runs_lift_ok ?_
        exact .cons ⟨_, _, _, _, rfl, rfl, hname, hvalue⟩ hrest

theorem runs_ofParameters {names names' values values' : Expr} (hnames : names.Like S.Names names')
    (hvalues : values.Like S.Names values') :
    S.Runs (fun b b' => ∃ bs bs', b = Expr.ofList bs ∧ b' = Expr.ofList bs' ∧ S.Bindings bs bs')
      (liftM (Env.ofParameters names values)) (liftM (Env.ofParameters names' values')) := by
  refine runs_lift_bind (runs_toList (by simp [listNames]) hnames) fun {names names'} hnames => ?_
  refine runs_lift_bind (runs_toList (by simp [listNames]) hvalues)
    fun {values values'} hvalues => ?_
  rw [hnames.length_eq, hvalues.length_eq]
  split
  · exact runs_lift_error (.arity _ _)
  · refine runs_lift_bind (runs_bindEach hnames hvalues) fun {bs bs'} hbs => ?_
    exact runs_lift_ok ⟨bs, bs', rfl, rfl, hbs⟩

theorem runs_lambda (heval : S.Evaluators eval eval') (henv : S.Envs env env')
    {rest rest' args args' : Expr}
    (hrest : rest.Like S.Names rest') (hargs : args.Like S.Names args') :
    S.Runs (Expr.Like S.Names) (Lambda.apply eval rest args env)
      (Lambda.apply eval' rest' args' env') := by
  refine runs_bind (runs_parts .lambda hrest) fun hparts => ?_
  refine runs_bind (runs_arguments heval henv hargs) fun hvalues => ?_
  refine runs_bind (runs_ofParameters hparts.1 hvalues) ?_
  rintro _ _ ⟨bs, bs', rfl, rfl, hbs⟩
  refine runs_note_bind ?_
  rw [Env.append_ofList, Env.append_ofList]
  exact runs_bind (runs_lift_ok (envs_ofList hbs henv)) fun hinner => heval hparts.2 hinner

theorem runs_procedure (heval : S.Evaluators eval eval') (henv : S.Envs env env')
    {procedure procedure' args args' : Expr} (h : procedure.Like S.Names procedure')
    (hargs : args.Like S.Names args') :
    S.Runs (Expr.Like S.Names) (Procedure.apply eval procedure args env)
      (Procedure.apply eval' procedure' args' env') := by
  cases h with
  | atom hname =>
    unfold Procedure.apply
    dsimp only
    rw [S.primitive_eq hname]
    split
    · exact runs_primitive heval henv _ hargs
    · exact runs_refuse (.notAFunction hname)
  | pair hhead hrest =>
    cases hhead with
    | pair hx hy => exact runs_refuse (.noRule (.pair (.pair (.pair hx hy) hrest) hargs))
    | atom hhead =>
      unfold Procedure.apply
      dsimp only
      rw [S.procedure_eq hhead]
      split
      · exact runs_label heval henv hrest hargs
      · exact runs_lambda heval henv hrest hargs
      · exact runs_refuse (.noRule (.pair (.pair (.atom hhead) hrest) hargs))

theorem eq_head_iff {a b : Atom} (h : S.Names a b) (form : Procedure) :
    a = form.head ↔ b = form.head := by
  have hform := S.procedure_eq h
  constructor
  · rintro rfl
    rw [Procedure.ofAtom?_head] at hform
    exact (Procedure.head_of_ofAtom? hform.symm).symm
  · rintro rfl
    rw [Procedure.ofAtom?_head] at hform
    exact (Procedure.head_of_ofAtom? hform).symm

theorem runs_value {a b : Atom} (h : S.Names a b) {rest rest' : Expr}
    (hrest : rest.Like S.Names rest') :
    S.Runs (Expr.Like S.Names) (liftM (Procedure.value (.atom a) rest))
      (liftM (Procedure.value (.atom b) rest')) := by
  simp only [Procedure.value_eq, Expr.atom.injEq, eq_head_iff h]
  split
  · exact runs_lift_bind (runs_labelParts hrest) fun _ => runs_lift_ok (.pair (.atom h) hrest)
  · exact runs_lift_bind (runs_parts .lambda hrest) fun _ => runs_lift_ok (.pair (.atom h) hrest)

/-- **Evaluations go together where the evaluators for the subexpressions do.** -/
theorem evaluators_evaluateWith (heval : S.Evaluators eval eval') :
    S.Evaluators (evaluateWith eval) (evaluateWith eval') := by
  intro e e' env env' he henv
  cases he with
  | atom hx => exact runs_lookup hx henv
  | pair hhead htail =>
    cases hhead with
    | pair hx hy => exact runs_procedure heval henv (.pair hx hy) htail
    | atom hhead =>
      unfold evaluateWith
      dsimp only
      rw [S.primitive_eq hhead, S.procedure_eq hhead]
      split
      · exact runs_primitive heval henv _ htail
      · split
        · exact runs_value hhead htail
        · exact runs_bind (runs_lookup hhead henv) fun h => runs_procedure heval henv h htail

end Simulation

end DottedLisp
