import DottedLisp.Proofs.Eval.Failure

/-!
# Evaluation sees look-ups only

Two environments that answer every look-up alike cannot be told apart by any evaluation. They may be
of any shape: bindings that are hidden or that no atom can name, elements that are no pairs behind a
name that is found, and what ends the spine all leave no trace.

A look-up shows its value, or the kind and the words of its error. That is as much as there is to
see: the errors of look-ups with one kind and the same words are the same error
(`Env.lookup_error_eq_of_shown_eq`).

An environment that answers more look-ups, and those of the other one alike, can turn the failure of
a look-up into something else. It changes no value and no other failure (`evaluate_eq_or_isLookup`).
-/

namespace DottedLisp

/-- What is seen of an error: its kind and its words. -/
def Error.shown (e : Error) : Error.Kind × Text := (e.kind, e.message)

namespace Env

/-- The environments answer every look-up with the same value, or with errors that show the same. -/
def AnswerAlike (env env' : Env) : Prop :=
  ∀ x, (env.lookup x).mapError Error.shown = (env'.lookup x).mapError Error.shown

/-- Names in words tell atoms apart, also behind other words. -/
theorem atom_eq_of_append_dotted {s : Text} {a b : Atom}
    (h : s ++ (Expr.atom a).dotted = s ++ (Expr.atom b).dotted) : a = b := by
  have hname : (Expr.atom a).dotted = (Expr.atom b).dotted := List.append_cancel_left h
  simp only [Expr.dotted_atom] at hname
  exact Atom.ext hname

/-- **Errors of look-ups that show the same are the same.** -/
theorem lookup_error_eq_of_shown_eq {x : Atom} {env env' : Env} {e e' : Error}
    (he : env.lookup x = .error e) (he' : env'.lookup x = .error e') (h : e.shown = e'.shown) :
    e = e' := by
  obtain ⟨hkind, hmessage⟩ := Prod.mk.inj h
  rcases lookup_error_cases he with rfl | ⟨a, rfl⟩
  · rcases lookup_error_cases he' with rfl | ⟨b, rfl⟩
    · rfl
    · cases hkind
  · rcases lookup_error_cases he' with rfl | ⟨b, rfl⟩
    · cases hkind
    · rw [atom_eq_of_append_dotted hmessage]

theorem AnswerAlike.lookup_eq {env env' : Env} (h : env.AnswerAlike env') (x : Atom) :
    env.lookup x = env'.lookup x := by
  have hx := h x
  cases hv : env.lookup x with
  | ok v =>
    cases hw : env'.lookup x with
    | ok w =>
      rw [hv, hw] at hx
      exact congrArg _ (Except.ok.inj hx)
    | error e => rw [hv, hw] at hx; cases hx
  | error e =>
    cases hw : env'.lookup x with
    | ok w => rw [hv, hw] at hx; cases hx
    | error e' =>
      rw [hv, hw] at hx
      have hshown : e.shown = e'.shown := Except.error.inj hx
      rw [lookup_error_eq_of_shown_eq hv hw hshown]

end Env

/-- One evaluation twice, in environments with the same look-ups. -/
def Simulation.lookups : Simulation :=
  sameNames (fun env env' => ∀ x, env.lookup x = env'.lookup x) Eq (fun _ => False)
    (fun henv x => by rw [Env.lookup_bind, Env.lookup_bind, henv x])
    (fun henv hv => (henv _).symm.trans hv)
    (fun henv he => .inr ⟨_, (henv _).symm.trans he, rfl⟩)
    (fun _ => rfl)

/-- **Evaluation sees an environment through look-ups only.** In environments of any shape that
answer every look-up alike, every evaluation ends the same: with the same value, with the same
error, or both at the nesting limit. -/
theorem evaluate_eq_of_answerAlike {env env' : Env} (h : env.AnswerAlike env') (limit : Nat)
    (e : Expr) :
    (evaluate limit e env).result = (evaluate limit e env').result := by
  have hlookup : Simulation.lookups.Envs env env' := h.lookup_eq
  have hsame : Simulation.lookups.Evaluators (evaluate limit) (evaluate limit) :=
    Simulation.evaluators_evaluate_same (.inr rfl) limit
  exact (hsame (.refl e) hlookup).result_eq Expr.Like.eq id (fun _ => id)

/-- The second environment has in addition an element that no atom can name, a hidden binding, and
more behind an element that is no pair. -/
theorem evaluate_eq_of_answerAlike_hidden :
    let env : Env := .pair (.pair Expr.t Expr.t) (.pair Expr.nil Expr.nil)
    let env' : Env := .pair (.pair (.pair Expr.t Expr.t) Expr.nil) (.pair (.pair Expr.t Expr.t)
      (.pair (.pair Expr.t Expr.nil) (.pair Expr.nil (.pair Expr.nil Expr.t))))
    let body : Expr := .pair (.atom Primitive.cons.name) (.pair Expr.t Expr.nil)
    let e : Expr :=
      .pair (.pair (.atom Procedure.lambda.head) (.pair (.pair Expr.nil Expr.nil) body))
      (.pair Expr.t Expr.nil)
    env ≠ env' ∧ env.AnswerAlike env' ∧ (evaluate 3 e env).result = (evaluate 3 e env').result := by
  intro env env' body e
  have halike : env.AnswerAlike env' := by
    intro x
    by_cases hx : Atom.t = x
    · simp [env, env', Env.lookup, Expr.t, hx]
    · simp [env, env', Env.lookup, Expr.t, Expr.nil, hx]
  exact ⟨by decide, halike, evaluate_eq_of_answerAlike halike 3 e⟩

/-! ## More bindings -/

namespace Env

/-- Every look-up that succeeds in `env` gives the same value in `env'`. -/
def Extends (env' env : Env) : Prop := ∀ x v, env.lookup x = .ok v → env'.lookup x = .ok v

theorem Extends.bind {env env' : Env} (h : env'.Extends env) (y : Atom) (w : Expr) :
    (env'.bind y w).Extends (env.bind y w) := by
  intro x v hv
  rw [lookup_bind] at hv ⊢
  split at hv
  · next hy => rwa [if_pos hy]
  · next hy =>
    rw [if_neg hy]
    exact h x v hv

/-- **An environment is extended by what is put behind it.** -/
theorem extends_ofList (elements : List Expr) (back : Env) :
    Extends (Expr.ofList elements back) (Expr.ofList elements) := by
  intro x v hv
  induction elements with
  | nil => cases hv
  | cons element elements ih =>
    cases element with
    | atom a => cases hv
    | pair name value =>
      have hcons : ∀ tail, Expr.ofList (.pair name value :: elements) tail =
          .pair (.pair name value) (Expr.ofList elements tail) := fun _ => rfl
      rw [hcons, lookup] at hv ⊢
      split at hv
      · next hname => rwa [if_pos hname]
      · next hname =>
        rw [if_neg hname]
        exact ih hv

end Env

/-- Is it the refusal of a look-up? -/
def Error.isLookup : Error → Bool
  | .unbound _ | .malformedBinding _ => true
  | _ => false

/-- One evaluation twice, the second time in an environment that has an answer wherever the first
one has. -/
def Simulation.extending : Simulation :=
  sameNames (fun env env' => env'.Extends env) Eq (fun f => ∃ e, f = .error e ∧ e.isLookup = true)
    (fun henv => henv.bind _ _)
    (fun henv hv => henv _ _ hv)
    (by
      rintro x e env env' _ he
      refine .inl ⟨e, rfl, ?_⟩
      rcases Env.lookup_error_cases he with rfl | ⟨a, rfl⟩
      · rfl
      · rfl)
    (fun _ => rfl)

/-- **More bindings change nothing but the failures of look-ups.** -/
theorem evaluate_eq_or_isLookup {env env' : Env} (h : env'.Extends env) (limit : Nat) (e : Expr) :
    (evaluate limit e env').result = (evaluate limit e env).result ∨
      ∃ refusal, (evaluate limit e env).result = .error (.error refusal) ∧
        refusal.isLookup = true := by
  have hsame : Simulation.extending.Evaluators (evaluate limit) (evaluate limit) :=
    Simulation.evaluators_evaluate_same (S := Simulation.extending) (.inr rfl) limit
  rcases (hsame (.refl e) h).result_eq_or_forgiven Expr.Like.eq id with
    heq | ⟨f, hf, refusal, rfl, hrefusal⟩
  · exact .inl heq
  · exact .inr ⟨refusal, hf, hrefusal⟩

/-- **A value stays with more bindings.** An expression that has a value in an environment has the
same value in every environment in which the look-ups that succeeded still give the same. In
particular this holds for a list, of bindings or other elements, and anything put behind it. -/
theorem evaluate_ok_of_extends (env : Env) :
    (∀ env' : Env, env'.Extends env → ∀ limit e v,
      (evaluate limit e env).result = .ok v → (evaluate limit e env').result = .ok v) ∧
    (env.terminator = Atom.nil → ∀ back, ∃ inner, env.append back = .ok inner ∧ ∀ limit e v,
      (evaluate limit e env).result = .ok v → (evaluate limit e inner).result = .ok v) := by
  have hkeeps : ∀ env' : Env, env'.Extends env → ∀ limit e v,
      (evaluate limit e env).result = .ok v → (evaluate limit e env').result = .ok v := by
    intro env' henv limit e v hv
    rcases evaluate_eq_or_isLookup henv limit e with heq | ⟨refusal, hrefusal, _⟩
    · exact heq.trans hv
    · rw [hv] at hrefusal
      cases hrefusal
  refine ⟨hkeeps, fun hnil back => ?_⟩
  have hlist : env.toList [] = .ok env.elements := by rw [Expr.toList, if_pos hnil]
  have henv := Expr.eq_ofList_of_toList hlist
  refine ⟨Expr.ofList env.elements back, ?_, hkeeps _ ?_⟩
  · exact Env.append_eq_ok_iff.mpr ⟨env.elements, henv, rfl⟩
  · have hextends := Env.extends_ofList env.elements back
    rwa [← henv] at hextends

/-- A call that binds a name, with another binding of that name in front of the environment or
behind it. -/
theorem evaluate_ok_of_extends_both :
    let x : Atom := ⟨text "x", by decide⟩
    let body : Expr := .pair (.atom Primitive.cons.name) (.pair (.atom x) Expr.nil)
    let e : Expr := .pair
      (.pair (.atom Procedure.lambda.head) (.pair (.pair (.atom x) Expr.nil) body))
        (.pair Expr.t Expr.nil)
    let v : Expr := .pair Expr.t Expr.nil
    let env' : Env := Env.initial.bind x Expr.nil
    let back : Env := .pair (.pair (.atom x) Expr.nil) (.atom x)
    (evaluate 3 e Env.initial).result = .ok v ∧
      (env'.Extends Env.initial ∧ (evaluate 3 e env').result = .ok v) ∧
      (Env.initial.terminator = Atom.nil ∧
        ∃ inner, Env.initial.append back = .ok inner ∧ (evaluate 3 e inner).result = .ok v) := by
  intro x body e v env' back
  have hvalue : (evaluate 3 e Env.initial).result = .ok v := by decide +kernel
  have hunbound : Env.initial.lookup x = .error (.unbound (.atom x)) := by decide
  have hextends : env'.Extends Env.initial := by
    intro y w hw
    rw [Env.lookup_bind]
    split
    · next hy => rw [← hy, hunbound] at hw; cases hw
    · exact hw
  have hnil : Env.initial.terminator = Atom.nil := rfl
  obtain ⟨hfront, hbehind⟩ := evaluate_ok_of_extends Env.initial
  obtain ⟨inner, hinner, hkeeps⟩ := hbehind hnil back
  exact ⟨hvalue, ⟨hextends, hfront env' hextends 3 e v hvalue⟩, hnil, inner, hinner,
    hkeeps 3 e v hvalue⟩

end DottedLisp
