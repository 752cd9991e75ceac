import DottedLisp.Proofs.Eval.Depth
import DottedLisp.Toplevel

/-!
# A program: substitution

A recursive procedure that puts an expression in the place of every occurrence of an atom. It has
three parameters and calls itself for both parts of a pair:

    ((label subst (lambda (x (y (z nil)))
       (cond ((atom z) (cond ((eq y z) x) (t z) nil))
             (t (cons (subst x (y ((car z) nil)))
                      (subst x (y ((cdr z) nil)))))
             nil)))
     (quote m) (quote b) (quote z) nil)

Every call puts its parameters in front of the environment of its caller, so the environment grows
along the recursion. What a call needs of it is said by `Frame`, and a call made from any frame has
a frame of its own (`Frame.enter`).
-/

namespace DottedLisp

/-- The expression with `m` in the place of every occurrence of the atom `b`. -/
def Expr.replace : Expr → (b : Atom) → (m : Expr) → Expr
  | .atom a, b, m => if a = b then m else .atom a
  | .pair x y, b, m => .pair (x.replace b m) (y.replace b m)

/-- A form of a primitive. -/
def Primitive.form (p : Primitive) (tail : Expr) : Expr := .pair (.atom p.name) tail

namespace Substitution

def subst : Atom := ⟨text "subst", by decide⟩
def x : Atom := ⟨text "x", by decide⟩
def y : Atom := ⟨text "y", by decide⟩
def z : Atom := ⟨text "z", by decide⟩

/-- The call for one part of a pair. -/
def again (part : Primitive) : Expr :=
  .pair (.atom subst) (Expr.ofList [.atom x, .atom y, part.form (.atom z)])

/-- What is done at an atom. -/
def leaf : Expr := Primitive.cond.form (Expr.ofList
  [.pair (Primitive.eq.form (.pair (.atom y) (.atom z))) (.atom x), .pair Expr.t (.atom z)])

def body : Expr := Primitive.cond.form (Expr.ofList
  [.pair (Primitive.atom.form (.atom z)) leaf,
    .pair Expr.t (Primitive.cons.form (.pair (again .car) (again .cdr)))])

def procedure : Expr :=
  .pair (.atom Procedure.lambda.head) (.pair (Expr.ofList ([x, y, z].map Expr.atom)) body)

/-- The procedure, called with three quoted expressions. -/
def program (m : Expr) (b : Atom) (e : Expr) : Expr :=
  .pair (.pair (.atom Procedure.label.head) (.pair (.atom subst) procedure))
    (Expr.ofList ([m, .atom b, e].map Primitive.quote.form))

/-! ## Frames -/

/-- The environment of a call: its three parameters, the procedure, and truth. -/
structure Frame (env : Env) (m : Expr) (b : Atom) (e : Expr) : Prop where
  lookup_x : env.lookup x = .ok m
  lookup_y : env.lookup y = .ok (.atom b)
  lookup_z : env.lookup z = .ok e
  lookup_subst : env.lookup subst = .ok procedure
  lookup_t : env.lookup Atom.t = .ok Expr.t

variable {env : Env} {m : Expr} {b : Atom}

/-- **A call finds its own parameters,** whatever its caller has bound them to. -/
theorem Frame.enter (hsubst : env.lookup subst = .ok procedure)
    (ht : env.lookup Atom.t = .ok Expr.t)
    (e : Expr) : Frame (Expr.ofList (Env.zip [x, y, z] [m, .atom b, e]) env) m b e where
  lookup_x := rfl
  lookup_y := rfl
  lookup_z := rfl
  -- no parameter has one of these names, so they are found in the environment of the caller
  lookup_subst := hsubst
  lookup_t := ht

/-! ## The body -/

/-- At an atom two clauses are left. -/
theorem evaluatesAt_leaf {a : Atom} (frame : Frame env m b (.atom a)) :
    EvaluatesAt 3 env leaf ((Expr.atom a).replace b m) := by
  have hx := EvaluatesAt.name frame.lookup_x
  have hz := EvaluatesAt.name frame.lookup_z
  have hsame := (EvaluatesAt.name frame.lookup_y).eq hz
  by_cases hab : a = b
  · subst hab
    have htrue : Expr.truth (Primitive.sameAtom (.atom a) (.atom a)) = Expr.t := by
      simp [Primitive.sameAtom, Expr.truth]
    rw [htrue] at hsame
    rw [Expr.replace, if_pos rfl]
    exact .cond (.take hsame (by decide) hx)
  · have hfalse : Expr.truth (Primitive.sameAtom (.atom b) (.atom a)) = Expr.nil := by
      simp [Primitive.sameAtom, Expr.truth, Ne.symm hab]
    rw [hfalse] at hsame
    rw [Expr.replace, if_neg hab]
    exact .cond (.skip hsame (.take (.name frame.lookup_t) (by decide) hz))

/-- A call for a part goes one level around the body, which sees the part as `z`. -/
theorem evaluatesAt_again {d : Nat} {part : Primitive} {e u v : Expr} (frame : Frame env m b e)
    (hpart : EvaluatesAt 2 env (part.form (.atom z)) u)
    (hbody : ∀ {inner}, Frame inner m b u → EvaluatesAt d inner body v) :
    EvaluatesAt (max 2 d + 1) env (again part) v := by
  have hargs : EvaluatesEachAt 2 env [.atom x, .atom y, part.form (.atom z)] [m, .atom b, u] :=
    .cons (.name frame.lookup_x) (.cons (.name frame.lookup_y) (.cons hpart .nil))
  exact .call (by decide) frame.lookup_subst hargs rfl
    (hbody (.enter frame.lookup_subst frame.lookup_t u))

/-- **In every frame the body gives the expression with its atoms replaced.** A pair takes three
levels more than the deeper of its parts: the clauses, the pair of calls and the call. -/
theorem evaluatesAt_body {e : Expr} (frame : Frame env m b e) :
    EvaluatesAt (3 * e.height + 4) env body (e.replace b m) := by
  induction e generalizing env with
  | atom a =>
    have hatom : EvaluatesAt 2 env (Primitive.atom.form (.atom z)) Expr.t :=
      (EvaluatesAt.name frame.lookup_z).atom
    exact .cond (.take hatom (by decide) (evaluatesAt_leaf frame))
  | pair u v ihu ihv =>
    have hz := EvaluatesAt.name frame.lookup_z
    have hcar := evaluatesAt_again frame hz.car ihu
    have hcdr := evaluatesAt_again frame hz.cdr ihv
    have hbody : EvaluatesAt _ env body ((Expr.pair u v).replace b m) :=
      .cond (.skip hz.atom (.take (.name frame.lookup_t) (by decide) (hcar.cons hcdr)))
    refine SettlesAt.of_eq hbody ?_
    rw [Expr.height]
    omega

/-- **The substitution program is right for all inputs.** Its value is the third argument with the
first one in the place of every occurrence of the atom. The limit decides only whether there is a
value: three levels for each level of the third argument and six more are enough, and with less the
evaluation ends at the limit. -/
theorem evaluate_program (m : Expr) (b : Atom) (e : Expr) (limit : Nat) :
    (evaluate limit (program m b e) Env.initial).result =
      if 3 * e.height + 6 ≤ limit then .ok (e.replace b m) else .error .tooDeep := by
  have hsubst : (Env.initial.bind subst procedure).lookup subst = .ok procedure := rfl
  have hargs : EvaluatesEachAt 1 (Env.initial.bind subst procedure)
      ([m, .atom b, e].map Primitive.quote.form) [m, .atom b, e] :=
    .cons (.quote m) (.cons (.quote (.atom b)) (.cons (.quote e) .nil))
  -- the quoted arguments take one level, so the body alone decides how deep the call goes
  have hcall :=
    EvaluatesAt.call (by decide) hsubst hargs rfl (evaluatesAt_body (.enter hsubst rfl e))
  have hprogram : EvaluatesAt (3 * e.height + 6) Env.initial (program m b e) (e.replace b m) :=
    (EvaluatesAt.label (by decide) hcall).of_eq (by omega)
  exact hprogram limit

-- the program as it is written in the loose notation
example :
    let m : Expr := .atom ⟨text "m", by decide⟩
    let b : Atom := ⟨text "b", by decide⟩
    let a : Expr := .atom ⟨text "a", by decide⟩
    looseToDotted defaultLimit (text "((label subst (lambda (x (y (z nil)))" ++
      text "(cond ((atom z) (cond ((eq y z) x) (t z) nil))" ++
      text "(t (cons (subst x (y ((car z) nil)))" ++
      text "(subst x (y ((cdr z) nil)))))" ++
      text "nil)))" ++
      text "(quote m) (quote b) (quote (a b)) nil)") =
        .ok (program m b (.pair a (.atom b))).dotted := by
  decide +kernel

end Substitution

end DottedLisp
