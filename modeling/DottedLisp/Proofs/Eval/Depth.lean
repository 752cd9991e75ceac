import DottedLisp.Proofs.Eval.Label

/-!
# How deep an evaluation goes

An evaluation that has a value needs a certain depth for it: with a smaller limit it ends at the
limit, and from that depth on it gives the value. A form needs one level more than the deepest of
what is evaluated for it, so the depth of a program can be found along with its value, rule by rule.
-/

namespace DottedLisp

variable {α β : Type}

/-- What depends on the limit ends at the limit below `depth`, and from there on it gives `a`. -/
def SettlesAt (depth : Nat) (run : Nat → Run Failure α) (a : α) : Prop :=
  ∀ limit, (run limit).result = if depth ≤ limit then .ok a else .error .tooDeep

namespace SettlesAt

variable {d d' : Nat} {run : Nat → Run Failure α} {next : Nat → α → Run Failure β} {a : α} {b : β}

theorem of_ok (h : ∀ limit, (run limit).result = .ok a) : SettlesAt 0 run a := by
  intro limit
  rw [if_pos (Nat.zero_le limit), h]

theorem of_eq (h : SettlesAt d run a) (hd : d = d') : SettlesAt d' run a := hd ▸ h

/-- **One after the other, the deeper one decides.** -/
theorem bind (h : SettlesAt d run a) (hnext : SettlesAt d' (fun limit => next limit a) b) :
    SettlesAt (max d d') (fun limit => run limit >>= next limit) b := by
  intro limit
  have hdeeper : max d d' ≤ limit ↔ d ≤ limit ∧ d' ≤ limit := Nat.max_le
  rw [Run.result_bind, h limit]
  by_cases hd : d ≤ limit
  · simpa [hdeeper, hd, Except.bind] using hnext limit
  · simp [hdeeper, hd, Except.bind]

theorem bind_ok (h : SettlesAt d run a) (hnext : ∀ limit, (next limit a).result = .ok b) :
    SettlesAt d (fun limit => run limit >>= next limit) b :=
  (h.bind (of_ok hnext)).of_eq (Nat.max_zero d)

theorem ok_bind {r : Run Failure α} (hr : r.result = .ok a)
    (hnext : SettlesAt d (fun limit => next limit a) b) :
    SettlesAt d (fun limit => r >>= next limit) b :=
  ((of_ok fun _ => hr).bind hnext).of_eq (Nat.zero_max d)

end SettlesAt

/-- `e` has the value `v` in `env`, and finding it takes exactly `depth` evaluations inside each
other. -/
def EvaluatesAt (depth : Nat) (env : Env) (e v : Expr) : Prop :=
  SettlesAt depth (fun limit => evaluate limit e env) v

/-- Each of the expressions has its value, and `depth` is what the deepest of them takes. -/
def EvaluatesEachAt (depth : Nat) (env : Env) (es vs : List Expr) : Prop :=
  SettlesAt depth (fun limit => es.mapM fun e => evaluate limit e env) vs

/-- The first clause with a predicate that is not `nil` has the value `v`. -/
def ChoosesAt (depth : Nat) (env : Env) (clauses : List Expr) (v : Expr) : Prop :=
  SettlesAt depth (fun limit => Primitive.chooseClause (evaluate limit) env clauses) v

variable {d d' : Nat} {env : Env}

namespace EvaluatesEachAt

theorem nil : EvaluatesEachAt 0 env [] [] := SettlesAt.of_ok fun _ => rfl

theorem cons {e v : Expr} {es vs : List Expr} (h : EvaluatesAt d env e v)
    (hs : EvaluatesEachAt d' env es vs) :
    EvaluatesEachAt (max d d') env (e :: es) (v :: vs) := by
  unfold EvaluatesEachAt
  simp only [List.mapM_cons]
  exact h.bind (hs.bind_ok fun _ => rfl)

end EvaluatesEachAt

namespace ChoosesAt

variable {p e holds v : Expr} {clauses : List Expr}

theorem skip (hp : EvaluatesAt d env p Expr.nil) (h : ChoosesAt d' env clauses v) :
    ChoosesAt (max d d') env (.pair p e :: clauses) v :=
  hp.bind h

theorem take (hp : EvaluatesAt d env p holds) (hholds : holds ≠ Expr.nil)
    (he : EvaluatesAt d' env e v) :
    ChoosesAt (max d d') env (.pair p e :: clauses) v := by
  refine SettlesAt.bind hp ?_
  simp only [if_neg hholds]
  exact he

end ChoosesAt

namespace EvaluatesAt

variable {e e' v v' : Expr}

/-- **An evaluation is one level around its parts.** -/
theorem of_parts (h : SettlesAt d (fun limit => evaluateWith (evaluate limit) e env) v) :
    EvaluatesAt (d + 1) env e v := by
  intro limit
  cases limit with
  | zero => simp [evaluate, Run.fail]
  | succ limit => simpa [evaluate] using h limit

theorem name {x : Atom} (h : env.lookup x = .ok v) : EvaluatesAt 1 env (.atom x) v :=
  of_parts (.of_ok fun _ => Run.result_lift_eq_ok_iff.mpr h)

/-! ## Primitives -/

theorem primitive {p : Primitive} {tail : Expr}
    (h : SettlesAt d (fun limit => p.apply (evaluate limit) tail env) v) :
    EvaluatesAt (d + 1) env (.pair (.atom p.name) tail) v := by
  refine of_parts ?_
  simp only [evaluateWith_primitive]
  exact h

theorem quote (v : Expr) : EvaluatesAt 1 env (.pair (.atom Primitive.quote.name) v) v :=
  primitive (.of_ok fun _ => rfl)

theorem atom (h : EvaluatesAt d env e v) :
    EvaluatesAt (d + 1) env (.pair (.atom Primitive.atom.name) e) (Expr.truth v.isAtom) :=
  primitive (h.bind_ok fun _ => rfl)

theorem eq (h : EvaluatesAt d env e v) (h' : EvaluatesAt d' env e' v') :
    EvaluatesAt (max d d' + 1) env (.pair (.atom Primitive.eq.name) (.pair e e'))
      (Expr.truth (Primitive.sameAtom v v')) :=
  primitive (.ok_bind rfl (h.bind (h'.bind_ok fun _ => rfl)))

theorem car (h : EvaluatesAt d env e (.pair v v')) :
    EvaluatesAt (d + 1) env (.pair (.atom Primitive.car.name) e) v :=
  primitive (h.bind_ok fun _ => rfl)

theorem cdr (h : EvaluatesAt d env e (.pair v v')) :
    EvaluatesAt (d + 1) env (.pair (.atom Primitive.cdr.name) e) v' :=
  primitive (h.bind_ok fun _ => rfl)

theorem cons (h : EvaluatesAt d env e v) (h' : EvaluatesAt d' env e' v') :
    EvaluatesAt (max d d' + 1) env (.pair (.atom Primitive.cons.name) (.pair e e')) (.pair v v') :=
  primitive (.ok_bind rfl (h.bind (h'.bind_ok fun _ => rfl)))

theorem cond {clauses : List Expr} (h : ChoosesAt d env clauses v) :
    EvaluatesAt (d + 1) env (.pair (.atom Primitive.cond.name) (Expr.ofList clauses)) v :=
  primitive (.ok_bind (Run.result_lift_eq_ok_iff.mpr (Expr.toList_ofList _ clauses)) h)

/-! ## Calls -/

theorem settlesAt_lambda {names : List Atom} {body : Expr} {args values : List Expr}
    (hargs : EvaluatesEachAt d env args values) (hlength : names.length = values.length)
    (hbody : EvaluatesAt d' (Expr.ofList (Env.zip names values) env) body v) :
    SettlesAt (max d d') (fun limit => Lambda.apply (evaluate limit)
      (.pair (Expr.ofList (names.map Expr.atom)) body) (Expr.ofList args) env) v := by
  have harguments :
      SettlesAt d (fun limit => Lambda.arguments (evaluate limit) (Expr.ofList args) env)
      (Expr.ofList values) :=
    .ok_bind (Run.result_lift_eq_ok_iff.mpr (Expr.toList_ofList _ args))
      (hargs.bind_ok fun _ => rfl)
  have hbindings : Env.ofParameters (Expr.ofList (names.map Expr.atom)) (Expr.ofList values) =
      .ok (Expr.ofList (Env.zip names values)) :=
    Env.ofParameters_eq_ok_iff.mpr ⟨names, values, rfl, rfl, hlength, rfl⟩
  have hinner := Env.append_ofList (Env.zip names values) env
  refine .ok_bind rfl (harguments.bind ?_)
  refine .ok_bind (Run.result_lift_eq_ok_iff.mpr hbindings) (.ok_bind rfl ?_)
  exact .ok_bind (Run.result_lift_eq_ok_iff.mpr hinner) hbody

/-- **A call takes one level around its arguments and the body of its procedure.** -/
theorem call {f : Atom} {names : List Atom} {body : Expr} {args values : List Expr}
    (hf : f.isForm = false)
    (hlookup : env.lookup f =
      .ok (.pair (.atom Procedure.lambda.head) (.pair (Expr.ofList (names.map Expr.atom)) body)))
    (hargs : EvaluatesEachAt d env args values) (hlength : names.length = values.length)
    (hbody : EvaluatesAt d' (Expr.ofList (Env.zip names values) env) body v) :
    EvaluatesAt (max d d' + 1) env (.pair (.atom f) (Expr.ofList args)) v := by
  refine of_parts ?_
  simp only [evaluateWith_call hf]
  refine .ok_bind (Run.result_lift_eq_ok_iff.mpr hlookup) ?_
  simp only [Procedure.apply_lambda]
  exact settlesAt_lambda hargs hlength hbody

/-- A label form takes one level around the call of its name. -/
theorem label {name : Atom} {procedure args : Expr} (hname : Primitive.ofAtom? name = none)
    (h : EvaluatesAt d (env.bind name procedure) (.pair (.atom name) args) v) :
    EvaluatesAt (d + 1) env
      (.pair (.pair (.atom Procedure.label.head) (.pair (.atom name) procedure)) args) v := by
  have hparts : Label.parts (.pair (.atom name) procedure) = .ok (name, procedure) :=
    Label.parts_eq_ok_iff.mpr ⟨rfl, hname⟩
  refine of_parts fun limit => ?_
  show (Procedure.apply (evaluate limit) (.pair (.atom Procedure.label.head) _) args env).result = _
  rw [Procedure.apply_label, Label.result_apply hparts]
  exact h limit

end EvaluatesAt

end DottedLisp
