import DottedLisp.Eval
import Mathlib.Data.List.Forall2

/-!
# When applying gives a value

For each part of the evaluator, what has to hold for it to give a value, in terms of the evaluator
`eval` that it was given for the subexpressions. Everything else about values of evaluation goes
through these statements, so the definitions are opened only here.
-/

namespace DottedLisp

theorem Except.bind_eq_ok_iff {ε α β : Type} {x : Except ε α} {f : α → Except ε β} {b : β} :
    (x >>= f) = .ok b ↔ ∃ a, x = .ok a ∧ f a = .ok b := by
  cases x with
  | error e => simp [bind, Except.bind]
  | ok a => simp [bind, Except.bind]

namespace Run

variable {φ α β : Type}

/-- **A composed run gives a value when both parts do.** -/
theorem result_bind_eq_ok_iff {x : Run φ α} {f : α → Run φ β} {b : β} :
    (x >>= f).result = .ok b ↔ ∃ a, x.result = .ok a ∧ (f a).result = .ok b := by
  rw [result_bind]
  exact Except.bind_eq_ok_iff

theorem result_lift_eq_ok_iff {r : Except Error α} {a : α} :
    (liftM r : Run Failure α).result = .ok a ↔ r = .ok a := by
  cases r with
  | error e =>
    constructor
    · intro h; cases h
    · intro h; cases h
  | ok b => exact ⟨fun h => by cases h; rfl, fun h => by cases h; rfl⟩

theorem lift_bind (r : Except Error α) (f : α → Except Error β) :
    (liftM (r >>= f) : Run Failure β) = liftM r >>= fun a => liftM (f a) := by
  cases r <;> rfl

theorem result_pure_eq_ok_iff {a b : α} : (pure a : Run φ α).result = .ok b ↔ a = b := by
  rw [result_pure, Except.ok.injEq]

theorem result_refuse_ne_ok {e : Error} {a : α} : (refuse e : Run Failure α).result ≠ .ok a := by
  intro h
  cases h

theorem result_note_bind (n : Note) (f : Unit → Run φ α) : (note n >>= f).result = (f ()).result :=
  rfl

/-- Runs one after the other give values when each of them does. -/
theorem result_mapM_eq_ok_iff {f : α → Run φ β} {xs : List α} {ys : List β} :
    (xs.mapM f).result = .ok ys ↔ List.Forall₂ (fun x y => (f x).result = .ok y) xs ys := by
  induction xs generalizing ys with
  | nil =>
    rw [List.mapM_nil, result_pure_eq_ok_iff, List.forall₂_nil_left_iff]
    exact eq_comm
  | cons x xs ih =>
    rw [List.mapM_cons, result_bind_eq_ok_iff, List.forall₂_cons_left_iff]
    simp only [result_bind_eq_ok_iff, result_pure_eq_ok_iff, ih]
    constructor
    · rintro ⟨y, hy, ys', hys, rfl⟩
      exact ⟨y, ys', hy, hys, rfl⟩
    · rintro ⟨y, ys', hy, hys, rfl⟩
      exact ⟨y, hy, ys', hys, rfl⟩

/-- Runs one after the other fail where the first of them does. -/
theorem result_mapM_eq_error_iff {f : α → Run φ β} {xs : List α} {e : φ} :
    (xs.mapM f).result = .error e ↔ ∃ before x after ys, xs = before ++ x :: after ∧
      List.Forall₂ (fun x y => (f x).result = .ok y) before ys ∧ (f x).result = .error e := by
  induction xs with
  | nil =>
    constructor
    · intro h; cases h
    · rintro ⟨before, x, after, ys, hxs, _⟩
      simp at hxs
  | cons a xs ih =>
    rw [List.mapM_cons, result_bind]
    cases ha : (f a).result with
    | error e' =>
      constructor
      · intro h
        cases h
        exact ⟨[], a, xs, [], rfl, .nil, ha⟩
      · rintro ⟨before, x, after, ys, hxs, hbefore, hx⟩
        cases hbefore with
        | nil =>
          cases hxs
          rw [ha] at hx
          cases hx
          rfl
        | cons hy _ =>
          cases hxs
          rw [ha] at hy
          cases hy
    | ok b =>
      have hrest : ((xs.mapM f >>= fun ys => pure (b :: ys)) : Run φ (List β)).result = .error e ↔
          (xs.mapM f).result = .error e := by
        rw [result_bind]
        cases (xs.mapM f).result <;> simp [Except.bind]
      refine hrest.trans (ih.trans ?_)
      constructor
      · rintro ⟨before, x, after, ys, rfl, hbefore, hx⟩
        exact ⟨a :: before, x, after, b :: ys, rfl, .cons ha hbefore, hx⟩
      · rintro ⟨before, x, after, ys, hxs, hbefore, hx⟩
        cases hbefore with
        | nil =>
          cases hxs
          rw [ha] at hx
          cases hx
        | cons hy hbefore =>
          cases hxs
          exact ⟨_, x, after, _, rfl, hbefore, hx⟩

end Run

theorem Expr.toList_eq_ok_iff {what : Text} {e : Expr} {items : List Expr} :
    e.toList what = .ok items ↔ e = ofList items := by
  constructor
  · exact eq_ofList_of_toList
  · rintro rfl
    exact toList_ofList what items

theorem Expr.ofList_injective {xs ys : List Expr} (h : ofList xs = ofList ys) : xs = ys := by
  have hxs := toList_ofList [] xs
  rw [h, toList_ofList, Except.ok.injEq] at hxs
  exact hxs.symm

variable {eval : Evaluator} {env : Env} {v : Expr}

namespace Primitive

theorem operands_eq_ok_iff {p : Primitive} {tail x y : Expr} :
    operands p tail = .ok (x, y) ↔ tail = .pair x y := by
  cases tail with
  | atom a => simp [operands]
  | pair x' y' => simp [operands]

theorem components_eq_ok_iff {p : Primitive} {value x y : Expr} :
    components p value = .ok (x, y) ↔ value = .pair x y := by
  cases value with
  | atom a => simp [components]
  | pair x' y' => simp [components]

theorem apply_atom_eq_ok_iff {tail : Expr} :
    (apply eval .atom tail env).result = .ok v ↔
      ∃ w, (eval tail env).result = .ok w ∧ Expr.truth w.isAtom = v := by
  simp only [apply, Run.result_bind_eq_ok_iff, Run.result_pure_eq_ok_iff]

theorem apply_eq_eq_ok_iff {tail : Expr} :
    (apply eval .eq tail env).result = .ok v ↔
      ∃ a b, tail = .pair a b ∧ ∃ x, (eval a env).result = .ok x ∧
        ∃ y, (eval b env).result = .ok y ∧ Expr.truth (sameAtom x y) = v := by
  simp only [apply, Run.result_bind_eq_ok_iff, Run.result_pure_eq_ok_iff, Run.result_lift_eq_ok_iff,
    Prod.exists, operands_eq_ok_iff]

theorem apply_car_eq_ok_iff {tail : Expr} :
    (apply eval .car tail env).result = .ok v ↔ ∃ y, (eval tail env).result = .ok (.pair v y) := by
  simp only [apply, Run.result_bind_eq_ok_iff, Run.result_pure_eq_ok_iff, Run.result_lift_eq_ok_iff,
    Prod.exists, components_eq_ok_iff]
  constructor
  · rintro ⟨w, hw, x, y, rfl, rfl⟩
    exact ⟨y, hw⟩
  · rintro ⟨y, hw⟩
    exact ⟨_, hw, v, y, rfl, rfl⟩

theorem apply_cdr_eq_ok_iff {tail : Expr} :
    (apply eval .cdr tail env).result = .ok v ↔ ∃ x, (eval tail env).result = .ok (.pair x v) := by
  simp only [apply, Run.result_bind_eq_ok_iff, Run.result_pure_eq_ok_iff, Run.result_lift_eq_ok_iff,
    Prod.exists, components_eq_ok_iff]
  constructor
  · rintro ⟨w, hw, x, y, rfl, rfl⟩
    exact ⟨x, hw⟩
  · rintro ⟨x, hw⟩
    exact ⟨_, hw, x, v, rfl, rfl⟩

theorem apply_cons_eq_ok_iff {tail : Expr} :
    (apply eval .cons tail env).result = .ok v ↔
      ∃ a b, tail = .pair a b ∧ ∃ x, (eval a env).result = .ok x ∧
        ∃ y, (eval b env).result = .ok y ∧ .pair x y = v := by
  simp only [apply, Run.result_bind_eq_ok_iff, Run.result_pure_eq_ok_iff, Run.result_lift_eq_ok_iff,
    Prod.exists, operands_eq_ok_iff]

theorem apply_cond_eq_ok_iff {tail : Expr} :
    (apply eval .cond tail env).result = .ok v ↔
      ∃ clauses, tail = Expr.ofList clauses ∧ (chooseClause eval env clauses).result = .ok v := by
  simp only [apply, Run.result_bind_eq_ok_iff, Run.result_lift_eq_ok_iff, Expr.toList_eq_ok_iff]

theorem chooseClause_nil_eq_ok_iff :
    (chooseClause eval env []).result = .ok v ↔ Expr.nil = v := by
  rw [chooseClause, Run.result_pure_eq_ok_iff]

theorem chooseClause_cons_eq_ok_iff {clause : Expr} {clauses : List Expr} :
    (chooseClause eval env (clause :: clauses)).result = .ok v ↔
      ∃ p x, clause = .pair p x ∧ ∃ w, (eval p env).result = .ok w ∧
        (if w = Expr.nil then chooseClause eval env clauses else eval x env).result = .ok v := by
  cases clause with
  | atom a =>
    constructor
    · intro h
      rw [chooseClause] at h
      · exact absurd h Run.result_refuse_ne_ok
      · rintro p x h
        cases h
    · rintro ⟨p, x, h, _⟩
      cases h
  | pair p x =>
    rw [chooseClause, Run.result_bind_eq_ok_iff]
    simp

end Primitive

theorem Procedure.parts_eq_ok_iff {form : Procedure} {rest x y : Expr} :
    form.parts rest = .ok (x, y) ↔ rest = .pair x y := by
  cases rest with
  | atom a => simp [parts]
  | pair x' y' => simp [parts]

namespace Label

theorem parts_pair_atom (a : Atom) (y : Expr) : parts (.pair (.atom a) y) =
    if (Primitive.ofAtom? a).isSome then .error (.labelPrimitive a) else .ok (a, y) := rfl

theorem parts_eq_ok_iff {rest procedure : Expr} {name : Atom} :
    parts rest = .ok (name, procedure) ↔
      rest = .pair (.atom name) procedure ∧ Primitive.ofAtom? name = none := by
  cases rest with
  | atom a =>
    constructor
    · intro h; cases h
    · rintro ⟨h, _⟩; cases h
  | pair x y =>
    cases x with
    | pair x₁ x₂ =>
      constructor
      · intro h; cases h
      · rintro ⟨h, _⟩; cases h
    | atom a =>
      rw [parts_pair_atom]
      split
      · next hsome =>
        constructor
        · intro h; cases h
        · rintro ⟨h, hname⟩
          cases h
          rw [hname] at hsome
          cases hsome
      · next hnone =>
        simp only [Except.ok.injEq, Prod.mk.injEq, Expr.pair.injEq, Expr.atom.injEq]
        constructor
        · rintro ⟨rfl, rfl⟩
          exact ⟨⟨rfl, rfl⟩, by simpa using hnone⟩
        · exact fun h => h.1

theorem apply_eq_ok_iff {rest args : Expr} :
    (apply eval rest args env).result = .ok v ↔
      ∃ name procedure, (rest = .pair (.atom name) procedure ∧ Primitive.ofAtom? name = none) ∧
        (eval (.pair (.atom name) args) (env.bind name procedure)).result = .ok v := by
  simp only [apply, Run.result_bind_eq_ok_iff, Run.result_lift_eq_ok_iff, Prod.exists,
    parts_eq_ok_iff, monadLift_self, Run.result_note_bind]

end Label

namespace Env

/-- The list of bindings of names to values, one each. -/
def zip (names : List Atom) (values : List Expr) : List Expr :=
  List.zipWith (fun x v => .pair (.atom x) v) names values

theorem bindEach_eq_ok_iff {names values bindings : List Expr} (h : names.length = values.length) :
    bindEach names values = .ok bindings ↔
      ∃ xs : List Atom, names = xs.map Expr.atom ∧ bindings = zip xs values := by
  induction names generalizing values bindings with
  | nil =>
    obtain rfl := List.eq_nil_of_length_eq_zero h.symm
    constructor
    · intro hbind
      cases hbind
      exact ⟨[], rfl, rfl⟩
    · rintro ⟨xs, hxs, rfl⟩
      obtain rfl := List.map_eq_nil_iff.mp hxs.symm
      rfl
  | cons name names ih =>
    cases values with
    | nil => cases h
    | cons value values =>
      cases name with
      | pair x y =>
        constructor
        · intro hbind; cases hbind
        · rintro ⟨xs, hxs, _⟩
          cases xs <;> cases hxs
      | atom x =>
        rw [bindEach, Except.bind_eq_ok_iff]
        simp only [ih (Nat.succ.inj h)]
        constructor
        · rintro ⟨_, ⟨xs, rfl, rfl⟩, hbind⟩
          cases hbind
          exact ⟨x :: xs, rfl, rfl⟩
        · rintro ⟨xs, hxs, rfl⟩
          obtain ⟨x', xs, rfl, hx, rfl⟩ := List.map_eq_cons_iff.mp hxs.symm
          cases hx
          exact ⟨_, ⟨xs, rfl, rfl⟩, rfl⟩

theorem ofParameters_eq_ok_iff {names values bindings : Expr} :
    ofParameters names values = .ok bindings ↔
      ∃ (xs : List Atom) (vs : List Expr), names = Expr.ofList (xs.map Expr.atom) ∧
        values = Expr.ofList vs ∧ xs.length = vs.length ∧ bindings = Expr.ofList (zip xs vs) := by
  unfold ofParameters
  simp only [Except.bind_eq_ok_iff, Expr.toList_eq_ok_iff]
  constructor
  · rintro ⟨names, rfl, vs, rfl, hbind⟩
    split at hbind
    · cases hbind
    · next hlength =>
      rw [not_not] at hlength
      obtain ⟨bindings, hbindings, hlist⟩ := Except.bind_eq_ok_iff.mp hbind
      obtain ⟨xs, rfl, rfl⟩ := (bindEach_eq_ok_iff hlength).mp hbindings
      cases hlist
      exact ⟨xs, vs, rfl, rfl, by simpa using hlength, rfl⟩
  · rintro ⟨xs, vs, rfl, rfl, hlength, rfl⟩
    have hlength' : (xs.map Expr.atom).length = vs.length := by simpa using hlength
    refine ⟨_, rfl, vs, rfl, ?_⟩
    rw [if_neg (not_not.mpr hlength')]
    exact Except.bind_eq_ok_iff.mpr ⟨_, (bindEach_eq_ok_iff hlength').mpr ⟨xs, rfl, rfl⟩, rfl⟩

theorem append_ofList (bindings : List Expr) (back : Env) :
    append (Expr.ofList bindings) back = .ok (Expr.ofList bindings back) := by
  rw [append, Expr.toList_ofList]
  rfl

theorem append_eq_ok_iff {front back inner : Env} :
    append front back = .ok inner ↔
      ∃ bindings, front = Expr.ofList bindings ∧ Expr.ofList bindings back = inner := by
  simp only [append, Except.bind_eq_ok_iff, Expr.toList_eq_ok_iff, pure, Except.pure,
    Except.ok.injEq]

end Env

namespace Lambda

theorem arguments_eq_ok_iff {args : Expr} :
    (arguments eval args env).result = .ok v ↔
      ∃ es, args = Expr.ofList es ∧
        ∃ vs, List.Forall₂ (fun e w => (eval e env).result = .ok w) es vs ∧ Expr.ofList vs = v := by
  simp only [arguments, Run.result_bind_eq_ok_iff, Run.result_lift_eq_ok_iff, Expr.toList_eq_ok_iff,
    Run.result_mapM_eq_ok_iff, Run.result_pure_eq_ok_iff]

theorem apply_eq_ok_iff {rest args : Expr} :
    (apply eval rest args env).result = .ok v ↔
      ∃ (names : List Atom) (body : Expr), rest = .pair (Expr.ofList (names.map Expr.atom)) body ∧
        ∃ es vs, args = Expr.ofList es ∧
          List.Forall₂ (fun e w => (eval e env).result = .ok w) es vs ∧ names.length = vs.length ∧
          (eval body (Expr.ofList (Env.zip names vs) env)).result = .ok v := by
  simp only [apply, Run.result_bind_eq_ok_iff, Run.result_lift_eq_ok_iff, Prod.exists,
    Procedure.parts_eq_ok_iff, arguments_eq_ok_iff, Env.ofParameters_eq_ok_iff,
    monadLift_self, Run.result_note_bind, Env.append_eq_ok_iff]
  constructor
  · rintro ⟨_, body, rfl, _, ⟨es, rfl, vs, hvs, rfl⟩, _, ⟨names, ws, rfl, hws, hlength, rfl⟩, _,
      ⟨bindings, hbindings, rfl⟩, hbody⟩
    obtain rfl := Expr.ofList_injective hws
    obtain rfl := Expr.ofList_injective hbindings
    exact ⟨names, body, rfl, es, vs, rfl, hvs, hlength, hbody⟩
  · rintro ⟨names, body, rfl, es, vs, rfl, hvs, hlength, hbody⟩
    exact ⟨_, body, rfl, _, ⟨es, rfl, vs, hvs, rfl⟩, _, ⟨names, vs, rfl, rfl, hlength, rfl⟩, _,
      ⟨_, rfl, rfl⟩, hbody⟩

end Lambda

namespace Procedure

theorem value_eq (head rest : Expr) : value head rest =
    if head = .atom label.head then Label.parts rest >>= fun _ => .ok (.pair head rest)
    else lambda.parts rest >>= fun _ => .ok (.pair head rest) := by
  unfold value
  split
  · cases Label.parts rest <;> rfl
  · cases lambda.parts rest <;> rfl

theorem value_label_eq_ok_iff {rest : Expr} :
    value (.atom label.head) rest = .ok v ↔
      ∃ name procedure, (rest = .pair (.atom name) procedure ∧ Primitive.ofAtom? name = none) ∧
        .pair (.atom label.head) rest = v := by
  rw [value_eq, if_pos rfl]
  simp only [Except.bind_eq_ok_iff, Prod.exists, Label.parts_eq_ok_iff, Except.ok.injEq]

theorem value_lambda_eq_ok_iff {rest : Expr} :
    value (.atom lambda.head) rest = .ok v ↔
      ∃ parameters body, rest = .pair parameters body ∧ .pair (.atom lambda.head) rest = v := by
  rw [value_eq, if_neg (by decide)]
  simp only [Except.bind_eq_ok_iff, Prod.exists, parts_eq_ok_iff, Except.ok.injEq]

theorem head_of_ofAtom? {a : Atom} {form : Procedure} (h : ofAtom? a = some form) :
    form.head = a :=
  of_decide_eq_true (List.find?_some h :)

theorem apply_name (p : Primitive) (args : Expr) :
    apply eval (.atom p.name) args env = p.apply eval args env := by
  simp [apply]

theorem apply_label (rest args : Expr) :
    apply eval (.pair (.atom label.head) rest) args env = Label.apply eval rest args env := by
  simp [apply]

theorem apply_lambda (rest args : Expr) :
    apply eval (.pair (.atom lambda.head) rest) args env = Lambda.apply eval rest args env := by
  simp [apply]

/-- **Primitives, label forms and lambda forms are all that can be applied.** -/
theorem apply_eq_ok_iff {procedure args : Expr} :
    (apply eval procedure args env).result = .ok v ↔
      (∃ p : Primitive, procedure = .atom p.name ∧ (p.apply eval args env).result = .ok v) ∨
      (∃ rest, procedure = .pair (.atom label.head) rest ∧
        (Label.apply eval rest args env).result = .ok v) ∨
      (∃ rest, procedure = .pair (.atom lambda.head) rest ∧
        (Lambda.apply eval rest args env).result = .ok v) := by
  constructor
  · intro h
    unfold apply at h
    split at h
    · split at h
      · next p hp => exact .inl ⟨p, by rw [Primitive.name_of_ofAtom? hp], h⟩
      · exact absurd h Run.result_refuse_ne_ok
    · next head rest =>
      split at h
      · next hform => exact .inr (.inl ⟨rest, by rw [head_of_ofAtom? hform], h⟩)
      · next hform => exact .inr (.inr ⟨rest, by rw [head_of_ofAtom? hform], h⟩)
      · exact absurd h Run.result_refuse_ne_ok
    · exact absurd h Run.result_refuse_ne_ok
  · rintro (⟨p, rfl, h⟩ | ⟨rest, rfl, h⟩ | ⟨rest, rfl, h⟩)
    · rwa [apply_name]
    · rwa [apply_label]
    · rwa [apply_lambda]

end Procedure

/-! ## One evaluation -/

theorem evaluateWith_primitive (p : Primitive) (tail : Expr) :
    evaluateWith eval (.pair (.atom p.name) tail) env = p.apply eval tail env := by
  simp [evaluateWith]

theorem evaluateWith_procedure (form : Procedure) (rest : Expr) :
    evaluateWith eval (.pair (.atom form.head) rest) env =
      liftM (Procedure.value (.atom form.head) rest) := by
  have hname : Primitive.ofAtom? form.head = none := by cases form <;> rfl
  simp [evaluateWith, hname]

theorem evaluateWith_call {x : Atom} (hx : x.isForm = false) (args : Expr) :
    evaluateWith eval (.pair (.atom x) args) env =
      liftM (env.lookup x) >>= fun procedure => Procedure.apply eval procedure args env := by
  rw [Atom.isForm, Bool.or_eq_false_iff, Option.isSome_eq_false_iff,
    Option.isNone_iff_eq_none] at hx
  simp [evaluateWith, hx]

/-- **An atom, a primitive's form, a procedure, a call by name and a call in place are all that has
a value.** -/
theorem evaluateWith_cases {e : Expr} (h : (evaluateWith eval e env).result = .ok v) :
    (∃ x, e = .atom x ∧ env.lookup x = .ok v) ∨
    (∃ (p : Primitive) (tail : Expr), e = .pair (.atom p.name) tail ∧
      (p.apply eval tail env).result = .ok v) ∨
    (∃ (form : Procedure) (rest : Expr), e = .pair (.atom form.head) rest ∧
      Procedure.value (.atom form.head) rest = .ok v) ∨
    (∃ x args procedure, e = .pair (.atom x) args ∧ x.isForm = false ∧
      env.lookup x = .ok procedure ∧
      (Procedure.apply eval procedure args env).result = .ok v) ∨
    (∃ x y args, e = .pair (.pair x y) args ∧
      (Procedure.apply eval (.pair x y) args env).result = .ok v) := by
  cases e with
  | atom x =>
    rw [evaluateWith, Run.result_lift_eq_ok_iff] at h
    exact .inl ⟨x, rfl, h⟩
  | pair head tail =>
    cases head with
    | pair x y => exact .inr (.inr (.inr (.inr ⟨x, y, tail, rfl, h⟩)))
    | atom x =>
      cases hp : Primitive.ofAtom? x with
      | some p =>
        obtain rfl := Primitive.name_of_ofAtom? hp
        rw [evaluateWith_primitive] at h
        exact .inr (.inl ⟨p, tail, rfl, h⟩)
      | none =>
        cases hform : Procedure.ofAtom? x with
        | some form =>
          obtain rfl := Procedure.head_of_ofAtom? hform
          rw [evaluateWith_procedure, Run.result_lift_eq_ok_iff] at h
          exact .inr (.inr (.inl ⟨form, tail, rfl, h⟩))
        | none =>
          have hx : x.isForm = false := by simp [Atom.isForm, hp, hform]
          rw [evaluateWith_call hx, Run.result_bind_eq_ok_iff] at h
          obtain ⟨procedure, hlookup, happly⟩ := h
          rw [Run.result_lift_eq_ok_iff] at hlookup
          exact .inr (.inr (.inr (.inl ⟨x, tail, procedure, rfl, hx, hlookup, happly⟩)))

end DottedLisp
