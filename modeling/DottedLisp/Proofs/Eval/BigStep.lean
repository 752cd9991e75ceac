import DottedLisp.Proofs.Eval.Limit

/-!
# The rules of evaluation

`Evaluates Admits env e v` is the least relation closed under the rules of the language, one
constructor a rule. It knows nothing of limits, of the order in which the evaluator tries things,
or of errors: an expression without a derivation has no value. The rules leave open which names a
label form may have; that is what `Admits` says.

The evaluator implements the rules, with label forms whose name is no primitive's: with enough
depth it finds exactly the values that are derivable. If label forms may have any name, then
what it finds is still derivable, but there are values that it does not find
(`evaluates_label_car`).
-/

namespace DottedLisp

/-- The first binding of a name. What comes behind it does not matter. -/
inductive Env.Binds (x : Atom) (v : Expr) : Env → Prop where
  | here {env : Env} : Binds x v (.pair (.pair (.atom x) v) env)
  | behind {name value : Expr} {env : Env} :
    name ≠ .atom x → Binds x v env → Binds x v (.pair (.pair name value) env)

theorem Env.lookup_eq_ok_iff {x : Atom} {v : Expr} {env : Env} :
    env.lookup x = .ok v ↔ env.Binds x v := by
  constructor
  · intro h
    fun_induction Env.lookup x env with
    | case1 a => cases h
    | case2 value rest =>
      cases h
      exact .here
    | case3 name value rest hname ih => exact .behind hname (ih h)
    | case4 binding rest _ => cases h
  · intro h
    induction h with
    | here => simp [lookup]
    | behind hname _ ih => simp [lookup, hname, ih]

theorem Primitive.ofAtom?_eq_none_iff {a : Atom} :
    ofAtom? a = none ↔ ∀ p : Primitive, p.name ≠ a := by
  constructor
  · rintro h p rfl
    rw [ofAtom?_name] at h
    cases h
  · intro h
    cases ha : ofAtom? a with
    | none => rfl
    | some p => exact absurd (name_of_ofAtom? ha) (h p)

mutual

/-- `e` has the value `v` in `env`, where label forms have names that are admitted. -/
inductive Evaluates (Admits : Atom → Prop) : Env → Expr → Expr → Prop where
  -- an atom stands for what it is bound to
  | name {env : Env} {x : Atom} {v : Expr} : env.Binds x v → Evaluates Admits env (.atom x) v
  -- primitives; two operands are the components of a pair
  | quote {env : Env} {x : Expr} : Evaluates Admits env (.pair (.atom Primitive.quote.name) x) x
  | atomOfAtom {env : Env} {e : Expr} {a : Atom} :
    Evaluates Admits env e (.atom a) →
      Evaluates Admits env (.pair (.atom Primitive.atom.name) e) Expr.t
  | atomOfPair {env : Env} {e x y : Expr} :
    Evaluates Admits env e (.pair x y) →
      Evaluates Admits env (.pair (.atom Primitive.atom.name) e) Expr.nil
  | eqSame {env : Env} {e₁ e₂ : Expr} {a : Atom} :
    Evaluates Admits env e₁ (.atom a) → Evaluates Admits env e₂ (.atom a) →
      Evaluates Admits env (.pair (.atom Primitive.eq.name) (.pair e₁ e₂)) Expr.t
  | eqOther {env : Env} {e₁ e₂ v₁ v₂ : Expr} :
    Evaluates Admits env e₁ v₁ → Evaluates Admits env e₂ v₂ →
      (¬∃ a, v₁ = .atom a ∧ v₂ = .atom a) →
      Evaluates Admits env (.pair (.atom Primitive.eq.name) (.pair e₁ e₂)) Expr.nil
  | car {env : Env} {e x y : Expr} :
    Evaluates Admits env e (.pair x y) →
      Evaluates Admits env (.pair (.atom Primitive.car.name) e) x
  | cdr {env : Env} {e x y : Expr} :
    Evaluates Admits env e (.pair x y) →
      Evaluates Admits env (.pair (.atom Primitive.cdr.name) e) y
  | cons {env : Env} {e₁ e₂ v₁ v₂ : Expr} :
    Evaluates Admits env e₁ v₁ → Evaluates Admits env e₂ v₂ →
      Evaluates Admits env (.pair (.atom Primitive.cons.name) (.pair e₁ e₂)) (.pair v₁ v₂)
  | cond {env : Env} {clauses : List Expr} {v : Expr} :
    Chooses Admits env clauses v →
      Evaluates Admits env (.pair (.atom Primitive.cond.name) (Expr.ofList clauses)) v
  -- a procedure is its own value, if it is in order
  | lambda {env : Env} {parameters body : Expr} :
    Evaluates Admits env (.pair (.atom Procedure.lambda.head) (.pair parameters body))
      (.pair (.atom Procedure.lambda.head) (.pair parameters body))
  | label {env : Env} {name : Atom} {procedure : Expr} : Admits name →
      Evaluates Admits env (.pair (.atom Procedure.label.head) (.pair (.atom name) procedure))
        (.pair (.atom Procedure.label.head) (.pair (.atom name) procedure))
  -- a call by name, of a procedure form or of a primitive
  | callPair {env : Env} {f : Atom} {x y args v : Expr} :
      f.isForm = false → env.Binds f (.pair x y) →
      Evaluates Admits env (.pair (.pair x y) args) v →
        Evaluates Admits env (.pair (.atom f) args) v
  | callPrimitive {env : Env} {f : Atom} {p : Primitive} {args v : Expr} :
      f.isForm = false → env.Binds f (.atom p.name) →
      Evaluates Admits env (.pair (.atom p.name) args) v →
      Evaluates Admits env (.pair (.atom f) args) v
  -- a call in place
  | applyLabel {env : Env} {name : Atom} {procedure args v : Expr} : Admits name →
      Evaluates Admits (env.bind name procedure) (.pair (.atom name) args) v →
      Evaluates Admits env
        (.pair (.pair (.atom Procedure.label.head) (.pair (.atom name) procedure)) args) v
  | applyLambda {env : Env} {names : List Atom} {body : Expr} {args values : List Expr} {v : Expr} :
      EvaluatesEach Admits env args values → names.length = values.length →
      Evaluates Admits (Expr.ofList (Env.zip names values) env) body v →
      Evaluates Admits env
        (.pair (.pair (.atom Procedure.lambda.head)
          (.pair (Expr.ofList (names.map Expr.atom)) body)) (Expr.ofList args)) v

/-- The expressions of a list have the values of another, from left to right. -/
inductive EvaluatesEach (Admits : Atom → Prop) : Env → List Expr → List Expr → Prop where
  | nil {env : Env} : EvaluatesEach Admits env [] []
  | cons {env : Env} {e v : Expr} {es vs : List Expr} :
    Evaluates Admits env e v → EvaluatesEach Admits env es vs →
      EvaluatesEach Admits env (e :: es) (v :: vs)

/-- The first of the clauses whose predicate is not `nil` has the value `v`. -/
inductive Chooses (Admits : Atom → Prop) : Env → List Expr → Expr → Prop where
  | none {env : Env} : Chooses Admits env [] Expr.nil
  | skip {env : Env} {p e v : Expr} {clauses : List Expr} :
    Evaluates Admits env p Expr.nil → Chooses Admits env clauses v →
      Chooses Admits env (.pair p e :: clauses) v
  | take {env : Env} {p e holds v : Expr} {clauses : List Expr} :
    Evaluates Admits env p holds → holds ≠ Expr.nil → Evaluates Admits env e v →
      Chooses Admits env (.pair p e :: clauses) v

end

theorem Primitive.sameAtom_eq_true_iff {x y : Expr} :
    sameAtom x y = true ↔ ∃ a, x = .atom a ∧ y = .atom a := by
  cases x with
  | pair x₁ x₂ => simp [sameAtom]
  | atom a =>
    cases y with
    | pair y₁ y₂ => simp [sameAtom]
    | atom b => simp [sameAtom, eq_comm]

/-! ## What is found is derivable -/

/-- The names of the label forms that the evaluator accepts: no primitive has them. -/
def Label.Admits (name : Atom) : Prop := ∀ p : Primitive, p.name ≠ name

/-- An evaluator that finds derivable values only. -/
def Evaluator.Sound (Admits : Atom → Prop) (eval : Evaluator) : Prop :=
  ∀ {e : Expr} {env : Env} {v : Expr}, (eval e env).result = .ok v → Evaluates Admits env e v

namespace Evaluator.Sound

variable {Admits : Atom → Prop} {eval : Evaluator} {env : Env} {v : Expr}

theorem chooses (heval : eval.Sound Admits) {clauses : List Expr}
    (h : (Primitive.chooseClause eval env clauses).result = .ok v) :
    Chooses Admits env clauses v := by
  induction clauses with
  | nil =>
    obtain rfl := Primitive.chooseClause_nil_eq_ok_iff.mp h
    exact .none
  | cons clause clauses ih =>
    obtain ⟨p, x, rfl, holds, hholds, hrest⟩ := Primitive.chooseClause_cons_eq_ok_iff.mp h
    by_cases hnil : holds = Expr.nil
    · rw [if_pos hnil] at hrest
      rw [hnil] at hholds
      exact .skip (heval hholds) (ih hrest)
    · rw [if_neg hnil] at hrest
      exact .take (heval hholds) hnil (heval hrest)

theorem each (heval : eval.Sound Admits) {es vs : List Expr}
    (h : List.Forall₂ (fun e v => (eval e env).result = .ok v) es vs) :
    EvaluatesEach Admits env es vs := by
  induction h with
  | nil => exact .nil
  | cons hv _ ih => exact .cons (heval hv) ih

theorem primitive (heval : eval.Sound Admits) {p : Primitive} {tail : Expr}
    (h : (p.apply eval tail env).result = .ok v) :
    Evaluates Admits env (.pair (.atom p.name) tail) v := by
  cases p with
  | quote =>
    cases h
    exact .quote
  | atom =>
    obtain ⟨w, hw, rfl⟩ := Primitive.apply_atom_eq_ok_iff.mp h
    cases w with
    | atom a => exact .atomOfAtom (heval hw)
    | pair x y => exact .atomOfPair (heval hw)
  | eq =>
    obtain ⟨e₁, e₂, rfl, v₁, h₁, v₂, h₂, rfl⟩ := Primitive.apply_eq_eq_ok_iff.mp h
    by_cases hsame : Primitive.sameAtom v₁ v₂ = true
    · obtain ⟨a, rfl, rfl⟩ := Primitive.sameAtom_eq_true_iff.mp hsame
      rw [hsame]
      exact .eqSame (heval h₁) (heval h₂)
    · rw [Bool.not_eq_true] at hsame
      rw [hsame]
      refine .eqOther (heval h₁) (heval h₂) fun h => ?_
      rw [Primitive.sameAtom_eq_true_iff.mpr h] at hsame
      cases hsame
  | car =>
    obtain ⟨y, hy⟩ := Primitive.apply_car_eq_ok_iff.mp h
    exact .car (heval hy)
  | cdr =>
    obtain ⟨x, hx⟩ := Primitive.apply_cdr_eq_ok_iff.mp h
    exact .cdr (heval hx)
  | cons =>
    obtain ⟨e₁, e₂, rfl, v₁, h₁, v₂, h₂, rfl⟩ := Primitive.apply_cons_eq_ok_iff.mp h
    exact .cons (heval h₁) (heval h₂)
  | cond =>
    obtain ⟨clauses, rfl, hclauses⟩ := Primitive.apply_cond_eq_ok_iff.mp h
    exact .cond (heval.chooses hclauses)

theorem lambda (heval : eval.Sound Admits) {rest args : Expr}
    (h : (Lambda.apply eval rest args env).result = .ok v) :
    Evaluates Admits env (.pair (.pair (.atom Procedure.lambda.head) rest) args) v := by
  obtain ⟨names, body, rfl, es, vs, rfl, hvs, hlength, hbody⟩ := Lambda.apply_eq_ok_iff.mp h
  exact .applyLambda (heval.each hvs) hlength (heval hbody)

-- whatever else may have a label, the names that the evaluator accepts have to be among it
variable (hadmits : ∀ name, Label.Admits name → Admits name)

include hadmits

theorem label (heval : eval.Sound Admits) {rest args : Expr}
    (h : (Label.apply eval rest args env).result = .ok v) :
    Evaluates Admits env (.pair (.pair (.atom Procedure.label.head) rest) args) v := by
  obtain ⟨name, procedure, ⟨rfl, hname⟩, hcall⟩ := Label.apply_eq_ok_iff.mp h
  exact .applyLabel (hadmits name (Primitive.ofAtom?_eq_none_iff.mp hname)) (heval hcall)

/-- A pair in the place of the procedure. -/
theorem procedure (heval : eval.Sound Admits) {x y args : Expr}
    (h : (Procedure.apply eval (.pair x y) args env).result = .ok v) :
    Evaluates Admits env (.pair (.pair x y) args) v := by
  obtain ⟨p, hp, _⟩ | ⟨rest, hrest, happly⟩ | ⟨rest, hrest, happly⟩ :=
    Procedure.apply_eq_ok_iff.mp h
  · cases hp
  · cases hrest
    exact label hadmits heval happly
  · cases hrest
    exact heval.lambda happly

/-- **An evaluation over a sound evaluator is sound.** -/
theorem evaluateWith (heval : eval.Sound Admits) : (evaluateWith eval).Sound Admits := by
  intro e env v h
  obtain ⟨x, rfl, hx⟩ | ⟨p, tail, rfl, hp⟩ | ⟨form, rest, rfl, hvalue⟩ |
    ⟨f, args, procedure, rfl, hf, hlookup, happly⟩ | ⟨x, y, args, rfl, happly⟩ :=
      evaluateWith_cases h
  · exact .name (Env.lookup_eq_ok_iff.mp hx)
  · exact heval.primitive hp
  · cases form with
    | label =>
      obtain ⟨name, procedure, ⟨rfl, hname⟩, rfl⟩ := Procedure.value_label_eq_ok_iff.mp hvalue
      exact .label (hadmits name (Primitive.ofAtom?_eq_none_iff.mp hname))
    | lambda =>
      obtain ⟨parameters, body, rfl, rfl⟩ := Procedure.value_lambda_eq_ok_iff.mp hvalue
      exact .lambda
  · have hbinds := Env.lookup_eq_ok_iff.mp hlookup
    cases procedure with
    | pair x y => exact .callPair hf hbinds (Sound.procedure hadmits heval happly)
    | atom a =>
      obtain ⟨p, hp, hprimitive⟩ | ⟨rest, hrest, _⟩ | ⟨rest, hrest, _⟩ :=
        Procedure.apply_eq_ok_iff.mp happly
      · cases hp
        exact .callPrimitive hf hbinds (heval.primitive hprimitive)
      · cases hrest
      · cases hrest
  · exact procedure hadmits heval happly

end Evaluator.Sound

theorem sound_evaluate {Admits : Atom → Prop} (hadmits : ∀ name, Label.Admits name → Admits name)
    (limit : Nat) : (evaluate limit).Sound Admits := by
  induction limit with
  | zero =>
    intro e env v h
    cases h
  | succ limit ih => exact Evaluator.Sound.evaluateWith hadmits ih

/-! ## What is derivable is found -/

/-- Two evaluations within one limit. -/
theorem exists_limit_both {env env' : Env} {e e' v v' : Expr}
    (h : ∃ limit, (evaluateWith (evaluate limit) e env).result = .ok v)
    (h' : ∃ limit, (evaluateWith (evaluate limit) e' env').result = .ok v') :
    ∃ limit, (evaluate limit e env).result = .ok v ∧ (evaluate limit e' env').result = .ok v' := by
  obtain ⟨m, hm⟩ := h
  obtain ⟨n, hn⟩ := h'
  exact ⟨max (m + 1) (n + 1), evaluate_eq_ok_of_le (Nat.le_max_left _ _) hm,
    evaluate_eq_ok_of_le (Nat.le_max_right _ _) hn⟩

theorem exists_limit_primitive {p : Primitive} {tail : Expr} {env : Env} {v : Expr} (limit : Nat)
    (h : (p.apply (evaluate limit) tail env).result = .ok v) :
    ∃ limit, (evaluateWith (evaluate limit) (.pair (.atom p.name) tail) env).result = .ok v :=
  ⟨limit, by rwa [evaluateWith_primitive]⟩

mutual

/-- **A derivable value is found with enough depth.** An evaluation needs one step more than the
deepest of its parts; a call by name needs no more than the call in place. -/
theorem Evaluates.exists_limit {env : Env} {e v : Expr} :
    Evaluates Label.Admits env e v → ∃ limit, (evaluateWith (evaluate limit) e env).result = .ok v
  | .name hx => by
    refine ⟨0, ?_⟩
    rw [evaluateWith, Run.result_lift_eq_ok_iff]
    exact Env.lookup_eq_ok_iff.mpr hx
  | .quote => exists_limit_primitive 0 rfl
  | .atomOfAtom he => by
    obtain ⟨n, hn⟩ := he.exists_limit
    exact exists_limit_primitive (n + 1) (Primitive.apply_atom_eq_ok_iff.mpr ⟨_, hn, rfl⟩)
  | .atomOfPair he => by
    obtain ⟨n, hn⟩ := he.exists_limit
    exact exists_limit_primitive (n + 1) (Primitive.apply_atom_eq_ok_iff.mpr ⟨_, hn, rfl⟩)
  | .eqSame h₁ h₂ => by
    obtain ⟨n, hn₁, hn₂⟩ := exists_limit_both h₁.exists_limit h₂.exists_limit
    refine exists_limit_primitive n
      (Primitive.apply_eq_eq_ok_iff.mpr ⟨_, _, rfl, _, hn₁, _, hn₂, ?_⟩)
    rw [Primitive.sameAtom_eq_true_iff.mpr ⟨_, rfl, rfl⟩]
    rfl
  | .eqOther h₁ h₂ hother => by
    obtain ⟨n, hn₁, hn₂⟩ := exists_limit_both h₁.exists_limit h₂.exists_limit
    refine exists_limit_primitive n
      (Primitive.apply_eq_eq_ok_iff.mpr ⟨_, _, rfl, _, hn₁, _, hn₂, ?_⟩)
    rw [← Primitive.sameAtom_eq_true_iff, Bool.not_eq_true] at hother
    rw [hother]
    rfl
  | .car he => by
    obtain ⟨n, hn⟩ := he.exists_limit
    exact exists_limit_primitive (n + 1) (Primitive.apply_car_eq_ok_iff.mpr ⟨_, hn⟩)
  | .cdr he => by
    obtain ⟨n, hn⟩ := he.exists_limit
    exact exists_limit_primitive (n + 1) (Primitive.apply_cdr_eq_ok_iff.mpr ⟨_, hn⟩)
  | .cons h₁ h₂ => by
    obtain ⟨n, hn₁, hn₂⟩ := exists_limit_both h₁.exists_limit h₂.exists_limit
    exact exists_limit_primitive n
      (Primitive.apply_cons_eq_ok_iff.mpr ⟨_, _, rfl, _, hn₁, _, hn₂, rfl⟩)
  | .cond hclauses => by
    obtain ⟨n, hn⟩ := hclauses.exists_limit
    exact exists_limit_primitive n (Primitive.apply_cond_eq_ok_iff.mpr ⟨_, rfl, hn⟩)
  | .lambda => by
    refine ⟨0, ?_⟩
    rw [evaluateWith_procedure, Run.result_lift_eq_ok_iff]
    exact Procedure.value_lambda_eq_ok_iff.mpr ⟨_, _, rfl, rfl⟩
  | .label hname => by
    refine ⟨0, ?_⟩
    rw [evaluateWith_procedure, Run.result_lift_eq_ok_iff]
    exact Procedure.value_label_eq_ok_iff.mpr
      ⟨_, _, ⟨rfl, Primitive.ofAtom?_eq_none_iff.mpr hname⟩, rfl⟩
  | .callPair hf hbinds hcall => by
    obtain ⟨n, hn⟩ := hcall.exists_limit
    -- looking the procedure up takes no depth
    refine ⟨n, ?_⟩
    rw [evaluateWith_call hf, Env.lookup_eq_ok_iff.mpr hbinds]
    exact hn
  | .callPrimitive hf hbinds hcall => by
    obtain ⟨n, hn⟩ := hcall.exists_limit
    refine ⟨n, ?_⟩
    rw [evaluateWith_primitive] at hn
    rw [evaluateWith_call hf, Env.lookup_eq_ok_iff.mpr hbinds]
    exact Procedure.apply_eq_ok_iff.mpr (.inl ⟨_, rfl, hn⟩)
  | .applyLabel hname hcall => by
    obtain ⟨n, hn⟩ := hcall.exists_limit
    refine ⟨n + 1, Procedure.apply_eq_ok_iff.mpr (.inr (.inl ⟨_, rfl, ?_⟩))⟩
    exact Label.apply_eq_ok_iff.mpr ⟨_, _, ⟨rfl, Primitive.ofAtom?_eq_none_iff.mpr hname⟩, hn⟩
  | .applyLambda hargs hlength hbody => by
    obtain ⟨m, hm⟩ := hargs.exists_limit
    obtain ⟨n, hn⟩ := hbody.exists_limit
    refine ⟨max m (n + 1), Procedure.apply_eq_ok_iff.mpr (.inr (.inr ⟨_, rfl, ?_⟩))⟩
    refine Lambda.apply_eq_ok_iff.mpr ⟨_, _, rfl, _, _, rfl, ?_, hlength, ?_⟩
    · exact hm.imp fun _ _ h => evaluate_eq_ok_of_le (Nat.le_max_left _ _) h
    · exact evaluate_eq_ok_of_le (Nat.le_max_right _ _) hn

theorem EvaluatesEach.exists_limit {env : Env} {es vs : List Expr} :
    EvaluatesEach Label.Admits env es vs →
      ∃ limit, List.Forall₂ (fun e v => (evaluate limit e env).result = .ok v) es vs
  | .nil => ⟨0, .nil⟩
  | .cons hv hvs => by
    obtain ⟨m, hm⟩ := hv.exists_limit
    obtain ⟨n, hn⟩ := hvs.exists_limit
    refine ⟨max (m + 1) n, .cons (evaluate_eq_ok_of_le (Nat.le_max_left _ _) hm) ?_⟩
    exact hn.imp fun _ _ h => evaluate_eq_ok_of_le (Nat.le_max_right _ _) h

theorem Chooses.exists_limit {env : Env} {clauses : List Expr} {v : Expr} :
    Chooses Label.Admits env clauses v →
      ∃ limit, (Primitive.chooseClause (evaluate limit) env clauses).result = .ok v
  | .none => ⟨0, rfl⟩
  | .skip hp hrest => by
    obtain ⟨m, hm⟩ := hp.exists_limit
    obtain ⟨n, hn⟩ := hrest.exists_limit
    refine ⟨max (m + 1) n, Primitive.chooseClause_cons_eq_ok_iff.mpr ⟨_, _, rfl, Expr.nil, ?_, ?_⟩⟩
    · exact evaluate_eq_ok_of_le (Nat.le_max_left _ _) hm
    · rw [if_pos rfl]
      exact chooseClause_eq_ok_of_le (Nat.le_max_right _ _) hn
  | .take hp hnil hv => by
    obtain ⟨n, hn₁, hn₂⟩ := exists_limit_both hp.exists_limit hv.exists_limit
    refine ⟨n, Primitive.chooseClause_cons_eq_ok_iff.mpr ⟨_, _, rfl, _, hn₁, ?_⟩⟩
    rw [if_neg hnil]
    exact hn₂

end

/-- **The evaluator implements the rules, for label forms whose name is no primitive's.** Some limit
lets it return a value exactly when the value is derivable with such label forms. So what it returns
is derivable too if label forms may have any name. -/
theorem exists_evaluate_iff_evaluates (e : Expr) (env : Env) (v : Expr) :
    ((∃ limit, (evaluate limit e env).result = .ok v) ↔ Evaluates Label.Admits env e v) ∧
    ((∃ limit, (evaluate limit e env).result = .ok v) → Evaluates (fun _ => True) env e v) := by
  refine ⟨⟨?_, fun h => ?_⟩, ?_⟩
  · rintro ⟨limit, h⟩
    exact sound_evaluate (fun _ h => h) limit h
  · obtain ⟨limit, hlimit⟩ := h.exists_limit
    exact ⟨limit + 1, hlimit⟩
  · rintro ⟨limit, h⟩
    exact sound_evaluate (fun _ _ => trivial) limit h

/-- If label forms may have any name, then the name `car` may be bound, and the call of it is that
of the primitive. The evaluator refuses such a form under every limit. -/
theorem evaluates_label_car :
    let x : Expr := .atom ⟨text "x", by decide⟩
    let form : Expr := .pair (.atom Procedure.label.head) (.pair (.atom Primitive.car.name) x)
    let call : Expr := .pair form (.pair (.atom Primitive.quote.name) (.pair Expr.t Expr.nil))
    Evaluates (fun _ => True) Env.initial call Expr.t ∧
      (∀ limit, (evaluate (limit + 1) call Env.initial).result =
        .error (.error (.labelPrimitive Primitive.car.name))) ∧
      ¬∃ limit, (evaluate limit call Env.initial).result = .ok Expr.t := by
  intro x form call
  have hrefused : ∀ limit, (evaluate (limit + 1) call Env.initial).result =
      .error (.error (.labelPrimitive Primitive.car.name)) := fun _ => rfl
  refine ⟨.applyLabel trivial (.car .quote), hrefused, ?_⟩
  rintro ⟨limit, h⟩
  cases limit with
  | zero => cases h
  | succ limit =>
    rw [hrefused limit] at h
    cases h

end DottedLisp
