import DottedLisp.Proofs.Eval.Limit

/-!
# The names an evaluation uses

An evaluation works with the names that it was given: those in its expression, those in the values
that its environment binds, and the truth atoms. All other names are out of its reach, although
scope is dynamic and values that were looked up or put together on the way are evaluated as code.

Where `P` holds for the truth atoms and for the names in the expression, and look-ups of names with
`P` give values whose names have `P`, this stays so in every environment of the run. Two
environments that agree on these look-ups cannot be told apart (`Simulation.within`).
-/

namespace DottedLisp

namespace Expr

/-- The names in an expression, from left to right. -/
def names : Expr → List Atom
  | .atom a => [a]
  | .pair x y => x.names ++ y.names

/-- All names in the expression have `P`. -/
def Within (P : Atom → Prop) (e : Expr) : Prop := ∀ a ∈ e.names, P a

theorem within_atom {P : Atom → Prop} {a : Atom} : (atom a).Within P ↔ P a := by
  simp [Within, names]

theorem within_pair {P : Atom → Prop} {x y : Expr} :
    (pair x y).Within P ↔ x.Within P ∧ y.Within P :=
  List.forall_mem_append

theorem within_ne_iff {x : Atom} {e : Expr} : e.Within (· ≠ x) ↔ x ∉ e.names := by
  constructor
  · intro h hx
    exact h x hx rfl
  · rintro h a ha rfl
    exact h ha

theorem like_within_iff {P : Atom → Prop} {e e' : Expr} :
    e.Like (fun a b => a = b ∧ P a) e' ↔ e = e' ∧ e.Within P := by
  constructor
  · intro h
    induction h with
    | atom h =>
      obtain ⟨rfl, ha⟩ := h
      exact ⟨rfl, within_atom.mpr ha⟩
    | pair _ _ hx hy =>
      obtain ⟨rfl, hx⟩ := hx
      obtain ⟨rfl, hy⟩ := hy
      exact ⟨rfl, within_pair.mpr ⟨hx, hy⟩⟩
  · rintro ⟨rfl, h⟩
    induction e with
    | atom a => exact .atom ⟨rfl, within_atom.mp h⟩
    | pair x y hx hy => exact .pair (hx (within_pair.mp h).1) (hy (within_pair.mp h).2)

theorem Like.mono {names names' : Atom → Atom → Prop} (hnames : ∀ {a b}, names a b → names' a b)
    {e e' : Expr} (h : e.Like names e') : e.Like names' e' := by
  induction h with
  | atom h => exact .atom (hnames h)
  | pair _ _ hx hy => exact .pair hx hy

end Expr

theorem Error.Like.mono {names names' : Atom → Atom → Prop}
    (hnames : ∀ {a b}, names a b → names' a b)
    {e e' : Error} (h : e.Like names e') : e.Like names' e' := by
  cases h with
  | improperList hwhat h => exact .improperList hwhat (hnames h)
  | arity wanted got => exact .arity wanted got
  | parameterNotAtom h => exact .parameterNotAtom (h.mono hnames)
  | operandsExpected p h => exact .operandsExpected p (h.mono hnames)
  | notAList p h => exact .notAList p (h.mono hnames)
  | clauseNotAList h => exact .clauseNotAList (h.mono hnames)
  | malformedProcedure form h => exact .malformedProcedure form (h.mono hnames)
  | labelNotAtom h => exact .labelNotAtom (h.mono hnames)
  | labelPrimitive h => exact .labelPrimitive (hnames h)
  | notAFunction h => exact .notAFunction (hnames h)
  | noRule h => exact .noRule (h.mono hnames)

namespace Env

/-- The bindings of an environment, hidden ones too. An element that is no pair or has no atom for a
name binds nothing. -/
def bindings : Env → List (Atom × Expr)
  | .atom _ => []
  | .pair (.pair (.atom x) v) rest => (x, v) :: bindings rest
  | .pair _ rest => bindings rest

theorem mem_bindings_of_lookup {x : Atom} {v : Expr} {env : Env} (h : env.lookup x = .ok v) :
    (x, v) ∈ env.bindings := by
  induction env with
  | atom a => cases h
  | pair binding rest _ ih =>
    cases binding with
    | atom a => cases h
    | pair name value =>
      rw [lookup] at h
      split at h
      · next hname =>
        cases h
        rw [hname, bindings]
        exact List.mem_cons_self
      · cases name with
        | atom y => exact List.mem_cons_of_mem _ (ih h)
        | pair _ _ => exact ih h

/-- The environments agree on the names with `P`, and the values they have for these stay within
`P`. -/
def AgreeWithin (P : Atom → Prop) (env env' : Env) : Prop :=
  ∀ x, P x → env.lookup x = env'.lookup x ∧ ∀ v, env.lookup x = .ok v → v.Within P

theorem AgreeWithin.bind {P : Atom → Prop} {env env' : Env} (h : env.AgreeWithin P env') {v : Expr}
    (hv : v.Within P) (y : Atom) : (env.bind y v).AgreeWithin P (env'.bind y v) := by
  intro x hx
  rw [lookup_bind, lookup_bind]
  split
  · exact ⟨rfl, fun w hw => Except.ok.inj hw ▸ hv⟩
  · exact h x hx

/-- **A binding of a name that no bound value holds is out of sight.** -/
theorem agreeWithin_bind_of_fresh {x : Atom} {env : Env} (h : ∀ b ∈ env.bindings, x ∉ b.2.names)
    (v : Expr) :
    (env.bind x v).AgreeWithin (· ≠ x) env := by
  intro y hy
  rw [lookup_bind, if_neg (Ne.symm hy)]
  exact ⟨rfl, fun w hw => Expr.within_ne_iff.mpr (h _ (mem_bindings_of_lookup hw))⟩

end Env

/-- Evaluations that use names with `P` only. -/
def Simulation.within (P : Atom → Prop) (ht : P Atom.t) (hnil : P Atom.nil) : Simulation where
  Names a b := a = b ∧ P a
  Envs := Env.AgreeWithin P
  Failures := Eq
  Forgiven _ := False
  eq_iff_eq := by
    rintro a _ a' _ ⟨rfl, _⟩ ⟨rfl, _⟩
    rfl
  names_t := ⟨rfl, ht⟩
  names_nil := ⟨rfl, hnil⟩
  primitive_eq h := congrArg _ h.1
  procedure_eq h := congrArg _ h.1
  envs_bind := by
    rintro x _ v w env env' ⟨rfl, _⟩ hvw henv
    obtain ⟨rfl, hv⟩ := Expr.like_within_iff.mp hvw
    exact henv.bind hv x
  lookup_ok := by
    rintro x _ v env env' ⟨rfl, hx⟩ henv hv
    obtain ⟨heq, hvalue⟩ := henv x hx
    exact ⟨v, heq ▸ hv, Expr.like_within_iff.mpr ⟨rfl, hvalue v hv⟩⟩
  lookup_error := by
    rintro x _ e env env' ⟨rfl, hx⟩ henv he
    exact .inr ⟨e, (henv x hx).1 ▸ he, rfl⟩
  failures_error h := congrArg _ (h.mono And.left).eq

section

variable {P : Atom → Prop} {e : Expr} {env env' : Env}

theorem runs_within (ht : P Atom.t) (hnil : P Atom.nil) (he : e.Within P)
    (henv : env.AgreeWithin P env')
    (limit : Nat) : (Simulation.within P ht hnil).Runs (Expr.Like fun a b => a = b ∧ P a)
      (evaluate limit e env) (evaluate limit e env') := by
  have hsame : (Simulation.within P ht hnil).Evaluators (evaluate limit) (evaluate limit) :=
    Simulation.evaluators_evaluate_same (.inr rfl) limit
  exact hsame (Expr.like_within_iff.mpr ⟨rfl, he⟩) henv

/-- **An evaluation sees only what its environment says of the names in reach.** -/
theorem evaluate_eq_of_agreeWithin (ht : P Atom.t) (hnil : P Atom.nil) (he : e.Within P)
    (henv : env.AgreeWithin P env') (limit : Nat) :
    (evaluate limit e env).result = (evaluate limit e env').result :=
  (runs_within ht hnil he henv limit).result_eq (fun h => (Expr.like_within_iff.mp h).1) id
    (fun _ => id)

/-- **No value leaves the names in reach.** -/
theorem within_of_evaluate (ht : P Atom.t) (hnil : P Atom.nil) (he : e.Within P)
    (henv : env.AgreeWithin P env) {limit : Nat} {v : Expr}
    (h : (evaluate limit e env).result = .ok v) :
    v.Within P := by
  obtain ⟨w, _, hvw⟩ := (runs_within ht hnil he henv limit).exists_ok h
  exact (Expr.like_within_iff.mp hvw).2

end

/-- **A binding of a fresh name changes nothing.** In front of an environment of any shape, a
binding of a name that is no truth atom and occurs neither in the expression nor in a value that is
bound leaves every evaluation as it is: the same value, the same error, or the limit for both. -/
theorem evaluate_bind_fresh {x : Atom} (ht : x ≠ Atom.t) (hnil : x ≠ Atom.nil) {e : Expr}
    (he : x ∉ e.names)
    {env : Env} (henv : ∀ b ∈ env.bindings, x ∉ b.2.names) (v : Expr) (limit : Nat) :
    (evaluate limit e (env.bind x v)).result = (evaluate limit e env).result := by
  -- the new binding answers for `x` only, and no look-up in reach asks for `x`
  have hagree := Env.agreeWithin_bind_of_fresh henv v
  exact evaluate_eq_of_agreeWithin ht.symm hnil.symm (Expr.within_ne_iff.mpr he) hagree limit

/-- The name is bound already and stands at the end of the environment, and the new value holds
it. -/
theorem evaluate_bind_fresh_rebound :
    let x : Atom := ⟨text "x", by decide⟩
    let f : Atom := ⟨text "f", by decide⟩
    let y : Atom := ⟨text "y", by decide⟩
    let body : Expr := .pair (.atom Primitive.cons.name) (.pair (.atom y) (.atom y))
    let procedure : Expr :=
      .pair (.atom Procedure.lambda.head) (.pair (.pair (.atom y) Expr.nil) body)
    let env : Env := .pair (.pair (.atom x) Expr.t) (.pair (.pair (.atom f) procedure) (.atom x))
    let e : Expr := .pair (.atom f) (.pair (.pair (.atom Primitive.quote.name) Expr.t) Expr.nil)
    x ≠ Atom.t ∧ x ≠ Atom.nil ∧ x ∉ e.names ∧ (∀ b ∈ env.bindings, x ∉ b.2.names) ∧
      (evaluate 3 e env).result = .ok (.pair Expr.t Expr.t) ∧
      (evaluate 3 e (env.bind x (.atom x))).result = .ok (.pair Expr.t Expr.t) := by
  intro x f y body procedure env e
  have ht : x ≠ Atom.t := by decide
  have hnil : x ≠ Atom.nil := by decide
  have he : x ∉ e.names := by decide
  have henv : ∀ b ∈ env.bindings, x ∉ b.2.names := by decide
  have hvalue : (evaluate 3 e env).result = .ok (.pair Expr.t Expr.t) := by decide +kernel
  have hsame := evaluate_bind_fresh ht hnil he henv (.atom x) 3
  exact ⟨ht, hnil, he, henv, hvalue, hsame.trans hvalue⟩

/-- **Evaluation invents no names.** Every name in a value occurs in the expression, in a value that
the environment binds, or is a truth atom. -/
theorem mem_names_of_evaluate {limit : Nat} {e : Expr} {env : Env} {v : Expr}
    (h : (evaluate limit e env).result = .ok v) {a : Atom} (ha : a ∈ v.names) :
    a ∈ e.names ∨ (∃ b ∈ env.bindings, a ∈ b.2.names) ∨ a = Atom.t ∨ a = Atom.nil := by
  let P : Atom → Prop := fun a =>
    a ∈ e.names ∨ (∃ b ∈ env.bindings, a ∈ b.2.names) ∨ a = Atom.t ∨ a = Atom.nil
  have hagree : env.AgreeWithin P env := by
    intro x _
    exact ⟨rfl, fun w hw a ha => .inr (.inl ⟨_, Env.mem_bindings_of_lookup hw, ha⟩)⟩
  have ht : P Atom.t := .inr (.inr (.inl rfl))
  have hnil : P Atom.nil := .inr (.inr (.inr rfl))
  exact within_of_evaluate ht hnil (fun a ha => .inl ha) hagree h a ha

/-- A procedure that is put together on the way and then called. Of the three names in the value,
the first is from the expression, the second from the environment, and the third is a truth atom. -/
theorem mem_names_of_evaluate_built :
    let f : Atom := ⟨text "f", by decide⟩
    let u : Atom := ⟨text "u", by decide⟩
    let w : Atom := ⟨text "w", by decide⟩
    let env : Env := .pair (.pair (.atom f) (.atom w)) Expr.nil
    let quoted : Expr → Expr := .pair (.atom Primitive.quote.name)
    let cons : Expr → Expr → Expr := fun x y => .pair (.atom Primitive.cons.name) (.pair x y)
    let built : Expr :=
      cons (quoted (.atom Procedure.lambda.head)) (quoted (.pair Expr.nil (quoted (.atom u))))
    let inner : Expr := .pair (.pair (.atom Procedure.lambda.head) (.pair (.pair (.atom f) Expr.nil)
      (.pair (.atom f) Expr.nil))) (.pair built Expr.nil)
    let e : Expr := cons inner (cons (.atom f) (.pair (.atom Primitive.atom.name) (.atom f)))
    let v : Expr := .pair (.atom u) (.pair (.atom w) Expr.t)
    (evaluate 5 e env).result = .ok v ∧ v.names = [u, w, Atom.t] ∧ w ∉ e.names ∧
      ∀ a ∈ v.names,
        a ∈ e.names ∨ (∃ b ∈ env.bindings, a ∈ b.2.names) ∨ a = Atom.t ∨ a = Atom.nil := by
  intro f u w env quoted cons built inner e v
  have hvalue : (evaluate 5 e env).result = .ok v := by decide +kernel
  exact ⟨hvalue, by decide, by decide, fun a ha => mem_names_of_evaluate hvalue ha⟩

end DottedLisp
