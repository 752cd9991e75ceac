import DottedLisp.Proofs.Eval.Outcome

/-!
# What is evaluated, where and when

Lambda forms and `cond` are given the evaluator for what stands inside them. If it is watched, the
calls that they make can be read off: which expression in which environment, and in which order.
Nothing is assumed about the evaluator. It may fail on any call, and what it answers may depend on
the calls that were made before.

`Lambda.Trace` and `Primitive.CondTrace` list the ways that applying can go, each with its calls and
its end. There is one for everything that a form can be given, and never a second one, so they say
exactly which calls are made (`Lambda.trace_iff_makes`, `Primitive.condTrace_iff_makes`).

An evaluator without a memory needs no other account: with it a form makes the same calls in a plain
run (`Watched.Embeds`).
-/

namespace DottedLisp

/-- The call of a watched evaluator that a note tells of. -/
def Note.call? : Note → Option (Expr × Env)
  | .call e env => some (e, env)
  | _ => none

namespace Run

variable {α β : Type}

/-- The calls of a watched evaluator, in order. -/
def calls (x : Run Failure α) : Calls := x.notes.filterMap Note.call?

/-- The run makes these calls and no others, in this order, and ends with this result. -/
structure Makes (x : Run Failure α) (calls : Calls) (result : Except Failure α) : Prop where
  calls_eq : x.calls = calls
  result_eq : x.result = result

namespace Makes

variable {x : Run Failure α} {f : α → Run Failure β} {a : α} {e : Failure} {c c' : Calls}

theorem unique {r r' : Except Failure α} (h : x.Makes c r) (h' : x.Makes c' r') :
    c = c' ∧ r = r' :=
  ⟨h.calls_eq.symm.trans h'.calls_eq, h.result_eq.symm.trans h'.result_eq⟩

theorem same {y : Run Failure α} {r : Except Failure α} (h : x.Makes c r) (h' : y.Makes c r) :
    x.calls = y.calls ∧ x.result = y.result :=
  ⟨h.calls_eq.trans h'.calls_eq.symm, h.result_eq.trans h'.result_eq.symm⟩

theorem bind {r : Except Failure β} (hx : x.Makes c (.ok a)) (hf : (f a).Makes c' r) :
    (x >>= f).Makes (c ++ c') r := by
  obtain ⟨notes, result⟩ := x
  obtain ⟨rfl, hresult⟩ := hx
  obtain ⟨rfl, rfl⟩ := hf
  obtain rfl : result = .ok a := hresult
  exact ⟨List.filterMap_append, rfl⟩

/-- What comes behind a failure makes no calls. -/
theorem bind_error (hx : x.Makes c (.error e)) : (x >>= f).Makes c (.error e) := by
  obtain ⟨notes, result⟩ := x
  obtain ⟨rfl, hresult⟩ := hx
  obtain rfl : result = .error e := hresult
  exact ⟨rfl, rfl⟩

end Makes

end Run

namespace Watched

variable {α β : Type} {x : Watched α} {f : α → Watched β} {a : α} {e : Failure}
  {before c c' : Calls}

/-- Behind the calls before, the run makes these calls, and it remembers them. -/
def Makes (x : Watched α) (before calls : Calls) (result : Except Failure α) : Prop :=
  (x before).Makes calls (result.map fun a => (a, before ++ calls))

namespace Makes

theorem unique {r r' : Except Failure α} (h : x.Makes before c r) (h' : x.Makes before c' r') :
    c = c' ∧ r = r' := by
  obtain ⟨rfl, hresult⟩ := Run.Makes.unique h h'
  refine ⟨rfl, ?_⟩
  cases r <;> cases r' <;> cases hresult <;> rfl

theorem bind {r : Except Failure β} (hx : x.Makes before c (.ok a))
    (hf : (f a).Makes (before ++ c) c' r) : (x >>= f).Makes before (c ++ c') r := by
  unfold Makes at hf
  rw [List.append_assoc] at hf
  exact Run.Makes.bind hx hf

theorem bind_silent {r : Except Failure β} (hx : x.Makes before c (.ok a))
    (hf : (f a).Makes (before ++ c) [] r) : (x >>= f).Makes before c r := by
  have hboth := hx.bind hf
  rwa [List.append_nil] at hboth

theorem pure (a : α) : Makes (Pure.pure a) before [] (.ok a) :=
  ⟨rfl, by rw [List.append_nil]; rfl⟩

theorem bind_pure (hx : x.Makes before c (.ok a)) (g : α → β) :
    (x >>= fun a => Pure.pure (g a)).Makes before c (.ok (g a)) :=
  hx.bind_silent (.pure _)

theorem bind_error (hx : x.Makes before c (.error e)) : (x >>= f).Makes before c (.error e) :=
  Run.Makes.bind_error hx

theorem lift_bind {l : Except Error α} {r : Except Failure β} (hl : l = .ok a)
    (hf : (f a).Makes before c r) : (liftM l >>= f).Makes before c r := by
  subst hl
  exact hf

theorem lift_bind_error {l : Except Error α} {e : Error} (hl : l = .error e) :
    (liftM l >>= f).Makes before [] (.error (.error e)) := by
  subst hl
  exact ⟨rfl, rfl⟩

theorem note_bind {n : Note} {f : Unit → Watched β} {r : Except Failure β} (hn : n.call? = none)
    (hf : (f ()).Makes before c r) :
    (liftM (Run.note n : Run Failure Unit) >>= f).Makes before c r := by
  have hnote : Makes (liftM (Run.note n : Run Failure Unit)) before [] (.ok ()) := by
    refine ⟨?_, by rw [List.append_nil]; rfl⟩
    show [n].filterMap Note.call? = []
    simp [hn]
  rw [← List.append_nil before] at hf
  exact hnote.bind hf

end Makes

/-! ## Without a memory -/

/-- Whatever was called before, the run does what a plain run does. -/
def Embeds (x : Watched α) (y : Run Failure α) : Prop := ∀ before, x.run' before = y

namespace Embeds

variable {y : Run Failure α} {g : α → Run Failure β}

theorem makes (h : Embeds x y) {r : Except Failure α} (hx : x.Makes before c r) : y.Makes c r := by
  rw [← h before]
  cases r with
  | error e => exact Run.Makes.bind_error hx
  | ok a =>
    have hend : (Pure.pure a : Run Failure α).Makes [] (.ok a) := ⟨rfl, rfl⟩
    exact List.append_nil c ▸ Run.Makes.bind hx hend

/-- A run that is known to make some calls makes just those of the plain run. -/
theorem makes_iff (h : Embeds x y) {r r' : Except Failure α} (hx : x.Makes before c' r') :
    x.Makes before c r ↔ y.Makes c r := by
  refine ⟨h.makes, fun hy => ?_⟩
  obtain ⟨rfl, rfl⟩ := hy.unique (h.makes hx)
  exact hx

theorem pure (a : α) : Embeds (Pure.pure a) (Pure.pure a) := fun _ => rfl

theorem lift (l : Except Error α) : Embeds (liftM l) (liftM l) := by
  cases l <;> exact fun _ => rfl

theorem bind (hx : Embeds x y) (hf : ∀ a, Embeds (f a) (g a)) : Embeds (x >>= f) (y >>= g) := by
  intro before
  calc (x >>= f).run' before
      = x before >>= fun p => (f p.1).run' p.2 := map_bind _ _ _
    _ = x before >>= fun p => g p.1 := by simp only [hf _ _]
    _ = x.run' before >>= g := (bind_map_left _ _ _).symm
    _ = y >>= g := by rw [hx]

theorem note (n : Note) :
    Embeds (liftM (Run.note n : Run Failure Unit)) (liftM (Run.note n : Run Failure Unit)) :=
  fun _ => rfl

end Embeds

end Watched

theorem Evaluator.makes_remembering {f : Calls → Expr → Env → Except Failure Expr} {before : Calls}
    {e : Expr} {env : Env} {r : Except Failure Expr} (h : f before e env = r) :
    Watched.Makes (remembering f e env) before [(e, env)] r := by
  subst h
  exact ⟨rfl, rfl⟩

/-- A function that makes no use of its memory can do without. -/
theorem Evaluator.embeds_remembering (f : Expr → Env → Except Failure Expr) (e : Expr) (env : Env) :
    Watched.Embeds (remembering (fun _ => f) e env) (watching f e env) := by
  intro before
  show Prod.fst <$> (⟨[.call e env], (f e env).map _⟩ : Run Failure (Expr × Calls)) =
    ⟨[.call e env], f e env⟩
  cases f e env <;> rfl

/-! ## Lists -/

namespace Expr

theorem toList_of_terminator_ne {e : Expr} (h : e.terminator ≠ Atom.nil) (what : Text) :
    e.toList what = .error (.improperList what e.terminator) := by
  rw [toList, if_neg h]

theorem exists_eq_ofList {e : Expr} (h : e.terminator = Atom.nil) : ∃ items, e = ofList items := by
  have hlist : e.toList [] = .ok e.elements := by rw [toList, if_pos h]
  exact ⟨e.elements, eq_ofList_of_toList hlist⟩

/-- Some items are atoms, up to the end or to a first pair. -/
theorem exists_atoms (items : List Expr) : ∃ (names : List Atom) (rest : List Expr),
    items = names.map atom ++ rest ∧ (rest = [] ∨ ∃ x y more, rest = pair x y :: more) := by
  induction items with
  | nil => exact ⟨[], [], rfl, .inl rfl⟩
  | cons item items ih =>
    cases item with
    | atom a =>
      obtain ⟨names, rest, rfl, hrest⟩ := ih
      exact ⟨a :: names, rest, rfl, hrest⟩
    | pair x y => exact ⟨[], _, rfl, .inr ⟨x, y, items, rfl⟩⟩

end Expr

variable {f : Calls → Expr → Env → Except Failure Expr} {env : Env}

/-- One after the other and behind the calls before, the expressions have these values by `f`. -/
inductive Values (f : Calls → Expr → Env → Except Failure Expr) (env : Env) :
    (before : Calls) → (es vs : List Expr) → Prop where
  | nil (before : Calls) : Values f env before [] []
  | cons {before : Calls} {e v : Expr} {es vs : List Expr} : f before e env = .ok v →
    Values f env (before ++ [(e, env)]) es vs → Values f env before (e :: es) (v :: vs)

theorem exists_values_or_failure (f : Calls → Expr → Env → Except Failure Expr) (env : Env)
    (before : Calls) (es : List Expr) :
    (∃ vs, Values f env before es vs) ∨ ∃ done e after vs failure, es = done ++ e :: after ∧
      Values f env before done vs ∧ f (before ++ done.map (·, env)) e env = .error failure := by
  induction es generalizing before with
  | nil => exact .inl ⟨[], .nil before⟩
  | cons e es ih =>
    cases he : f before e env with
    | error failure =>
      refine .inr ⟨[], e, es, [], failure, rfl, .nil before, ?_⟩
      rwa [List.map_nil, List.append_nil]
    | ok v =>
      rcases ih (before ++ [(e, env)]) with
        ⟨vs, hvs⟩ | ⟨done, e', after, vs, failure, rfl, hvs, he'⟩
      · exact .inl ⟨v :: vs, .cons he hvs⟩
      · refine .inr ⟨e :: done, e', after, v :: vs, failure, rfl, .cons he hvs, ?_⟩
        rwa [List.append_assoc] at he'

theorem makes_mapM {before : Calls} {es vs : List Expr} (h : Values f env before es vs) :
    Watched.Makes (es.mapM fun e => Evaluator.remembering f e env) before (es.map (·, env))
      (.ok vs) := by
  induction h with
  | nil before => exact ⟨rfl, by rw [List.map_nil, List.append_nil]; rfl⟩
  | cons he _ ih =>
    rw [List.mapM_cons]
    exact (Evaluator.makes_remembering he).bind (ih.bind_pure _)

/-- **Going from left to right stops at the first failure.** -/
theorem makes_mapM_failure {before : Calls} {done vs after : List Expr} {e : Expr}
    {failure : Failure} (hdone : Values f env before done vs)
    (he : f (before ++ done.map (·, env)) e env = .error failure) :
    Watched.Makes ((done ++ e :: after).mapM fun e => Evaluator.remembering f e env) before
      ((done ++ [e]).map (·, env)) (.error failure) := by
  induction hdone with
  | nil before =>
    rw [List.map_nil, List.append_nil] at he
    rw [List.nil_append, List.mapM_cons]
    exact (Evaluator.makes_remembering he).bind_error
  | cons hv _ ih =>
    rw [List.map_cons, ← List.singleton_append, ← List.append_assoc] at he
    rw [List.cons_append, List.mapM_cons]
    exact (Evaluator.makes_remembering hv).bind (ih he).bind_error

theorem embeds_mapM {eval : Expr → Env → Watched Expr} {eval' : Evaluator}
    (h : ∀ e env, Watched.Embeds (eval e env) (eval' e env)) (es : List Expr) (env : Env) :
    Watched.Embeds (es.mapM fun e => eval e env) (es.mapM fun e => eval' e env) := by
  induction es with
  | nil => exact .pure []
  | cons e es ih =>
    rw [List.mapM_cons, List.mapM_cons]
    exact (h e env).bind fun v => ih.bind fun vs => .pure (v :: vs)

/-! ## Parameters -/

namespace Env

theorem ofParameters_improper {names : Expr} (h : names.terminator ≠ Atom.nil) (values : Expr) :
    ofParameters names values =
      .error (.improperList (text "parameter list") names.terminator) := by
  unfold ofParameters
  rw [Expr.toList_of_terminator_ne h]
  rfl

theorem ofParameters_ofList (names values : List Expr) :
    ofParameters (Expr.ofList names) (Expr.ofList values) =
      if names.length = values.length then
        (bindEach names values).map fun bindings => Expr.ofList bindings
      else .error (.arity names.length values.length) := by
  unfold ofParameters
  rw [Expr.toList_ofList, Expr.toList_ofList]
  by_cases h : names.length = values.length
  · simp only [Bind.bind, Except.bind, ne_eq, h, not_true_eq_false, if_false, if_true]
    cases bindEach names values <;> rfl
  · simp only [Bind.bind, Except.bind, ne_eq, h, not_false_eq_true, if_false, if_true]
    rfl

theorem bindEach_first_pair {names : List Atom} {x y : Expr} {more values : List Expr}
    (h : names.length < values.length) :
    bindEach (names.map Expr.atom ++ .pair x y :: more) values =
      .error (.parameterNotAtom (.pair x y)) := by
  induction names generalizing values with
  | nil =>
    cases values with
    | nil => cases h
    | cons v values => rfl
  | cons name names ih =>
    cases values with
    | nil => cases h
    | cons v values =>
      rw [List.map_cons, List.cons_append, bindEach, ih (Nat.lt_of_succ_lt_succ h)]
      rfl

theorem ofParameters_first_pair {names : List Atom} {x y : Expr} {more values : List Expr}
    (h : (names.map Expr.atom ++ .pair x y :: more).length = values.length) :
    ofParameters (Expr.ofList (names.map Expr.atom ++ .pair x y :: more)) (Expr.ofList values) =
      .error (.parameterNotAtom (.pair x y)) := by
  have hlength : names.length < values.length := by
    rw [← h]
    simp
  rw [ofParameters_ofList, if_pos h, bindEach_first_pair hlength]
  rfl

end Env

/-! ## Lambda forms -/

namespace Lambda

/-- How it goes to apply a lambda form, with `rest` behind its head, to arguments that are not yet
evaluated: the calls that are made, and the end. -/
inductive Trace (f : Calls → Expr → Env → Except Failure Expr) (env : Env) :
    (rest args : Expr) → (calls : Calls) → (result : Except Failure Expr) → Prop where
  -- nothing is evaluated if the form lacks a part or the arguments are no list
  | malformed (a : Atom) (args : Expr) :
    Trace f env (.atom a) args [] (.error (.error (.malformedProcedure .lambda (.atom a))))
  | improperArguments (parameters body : Expr) {args : Expr} : args.terminator ≠ Atom.nil →
    Trace f env (.pair parameters body) args []
      (.error (.error (.improperList (text "argument list") args.terminator)))
  -- the arguments come first, from left to right up to a failure
  | argument (parameters body : Expr) {before after vs : List Expr} {e : Expr}
    {failure : Failure} :
    Values f env [] before vs → f (before.map (·, env)) e env = .error failure →
    Trace f env (.pair parameters body) (Expr.ofList (before ++ e :: after))
      ((before ++ [e]).map (·, env)) (.error failure)
  -- what is wrong with the parameters is seen when all arguments have values
  | improperParameters {parameters : Expr} (body : Expr) {es vs : List Expr} :
    Values f env [] es vs → parameters.terminator ≠ Atom.nil →
    Trace f env (.pair parameters body) (Expr.ofList es) (es.map (·, env))
      (.error (.error (.improperList (text "parameter list") parameters.terminator)))
  | arity {names : List Expr} (body : Expr) {es vs : List Expr} :
    Values f env [] es vs → names.length ≠ vs.length →
    Trace f env (.pair (Expr.ofList names) body) (Expr.ofList es) (es.map (·, env))
      (.error (.error (.arity names.length vs.length)))
  | parameter {names : List Atom} {x y : Expr} {more : List Expr} (body : Expr)
    {es vs : List Expr} :
    Values f env [] es vs → (names.map Expr.atom ++ .pair x y :: more).length = vs.length →
    Trace f env (.pair (Expr.ofList (names.map Expr.atom ++ .pair x y :: more)) body)
      (Expr.ofList es) (es.map (·, env)) (.error (.error (.parameterNotAtom (.pair x y))))
  -- the body comes last, with the parameters in front of the environment of the call
  | body {names : List Atom} (body : Expr) {es vs : List Expr} {bindings inner : Env} :
    Values f env [] es vs → names.length = vs.length →
    Env.ofParameters (Expr.ofList (names.map Expr.atom)) (Expr.ofList vs) = .ok bindings →
    bindings.append env = .ok inner →
    Trace f env (.pair (Expr.ofList (names.map Expr.atom)) body) (Expr.ofList es)
      (es.map (·, env) ++ [(body, inner)]) (f (es.map (·, env)) body inner)

section

variable {eval : Expr → Env → Watched Expr} {parameters body args : Expr} {before c : Calls}

theorem makes_arguments {es vs : List Expr} (h : Values f env before es vs) :
    Watched.Makes (arguments (Evaluator.remembering f) (Expr.ofList es) env) before
      (es.map (·, env)) (.ok (Expr.ofList vs)) :=
  .lift_bind (Expr.toList_ofList _ es) ((makes_mapM h).bind_pure _)

theorem makes_apply_failure {failure : Failure}
    (h : Watched.Makes (arguments eval args env) before c (.error failure)) :
    Watched.Makes (apply eval (.pair parameters body) args env) before c (.error failure) :=
  .lift_bind rfl h.bind_error

theorem makes_apply_refused {values : Expr} {e : Error}
    (h : Watched.Makes (arguments eval args env) before c (.ok values))
    (he : Env.ofParameters parameters values = .error e) :
    Watched.Makes (apply eval (.pair parameters body) args env) before c (.error (.error e)) :=
  .lift_bind rfl (h.bind_silent (.lift_bind_error he))

theorem makes_apply_body {values : Expr} {bindings inner : Env} {c' : Calls}
    {r : Except Failure Expr} (h : Watched.Makes (arguments eval args env) before c (.ok values))
    (hbindings : Env.ofParameters parameters values = .ok bindings)
    (hinner : bindings.append env = .ok inner)
    (hbody : Watched.Makes (eval body inner) (before ++ c) c' r) :
    Watched.Makes (apply eval (.pair parameters body) args env) before (c ++ c') r :=
  .lift_bind rfl (h.bind (.lift_bind hbindings (.note_bind rfl (.lift_bind hinner hbody))))

theorem embeds_apply {eval' : Evaluator} (h : ∀ e env, Watched.Embeds (eval e env) (eval' e env))
    (rest args : Expr) (env : Env) :
    Watched.Embeds (apply eval rest args env) (apply eval' rest args env) := by
  have harguments : Watched.Embeds (arguments eval args env) (arguments eval' args env) :=
    (Watched.Embeds.lift _).bind fun es => (embeds_mapM h es env).bind fun vs => .pure _
  refine (Watched.Embeds.lift _).bind fun parts => harguments.bind fun values => ?_
  refine (Watched.Embeds.lift _).bind fun bindings => (Watched.Embeds.note _).bind fun _ => ?_
  exact (Watched.Embeds.lift _).bind fun inner => h parts.2 inner

end

theorem Trace.makes {rest args : Expr} {calls : Calls} {result : Except Failure Expr}
    (h : Trace f env rest args calls result) :
    Watched.Makes (apply (Evaluator.remembering f) rest args env) [] calls result := by
  cases h with
  | malformed a args => exact .lift_bind_error rfl
  | improperArguments parameters body h =>
    exact makes_apply_failure (.lift_bind_error (Expr.toList_of_terminator_ne h _))
  | argument parameters body hbefore he =>
    refine makes_apply_failure (.lift_bind (Expr.toList_ofList _ _) ?_)
    exact (makes_mapM_failure hbefore he).bind_error
  | improperParameters body hvs h =>
    exact makes_apply_refused (makes_arguments hvs) (Env.ofParameters_improper h _)
  | arity body hvs h =>
    refine makes_apply_refused (makes_arguments hvs) ?_
    rw [Env.ofParameters_ofList, if_neg h]
  | parameter body hvs h =>
    exact makes_apply_refused (makes_arguments hvs) (Env.ofParameters_first_pair h)
  | body body hvs _ hbindings hinner =>
    exact makes_apply_body (makes_arguments hvs) hbindings hinner
      (Evaluator.makes_remembering rfl)

theorem exists_trace_of_values {es vs : List Expr} (hvs : Values f env [] es vs)
    (parameters body : Expr) :
    ∃ calls result, Trace f env (.pair parameters body) (Expr.ofList es) calls result := by
  by_cases hparameters : parameters.terminator = Atom.nil
  · obtain ⟨names, rfl⟩ := Expr.exists_eq_ofList hparameters
    by_cases hlength : names.length = vs.length
    · obtain ⟨names, more, rfl, rfl | ⟨x, y, more, rfl⟩⟩ := Expr.exists_atoms names
      · rw [List.append_nil] at hlength ⊢
        have hnames : names.length = vs.length := by simpa using hlength
        have hbindings := Env.ofParameters_eq_ok_iff.mpr ⟨names, vs, rfl, rfl, hnames, rfl⟩
        exact ⟨_, _, .body body hvs hnames hbindings (Env.append_ofList _ env)⟩
      · exact ⟨_, _, .parameter body hvs hlength⟩
    · exact ⟨_, _, .arity body hvs hlength⟩
  · exact ⟨_, _, .improperParameters body hvs hparameters⟩

/-- **There is a way for everything that a lambda form can be given.** -/
theorem exists_trace (f : Calls → Expr → Env → Except Failure Expr) (env : Env)
    (rest args : Expr) : ∃ calls result, Trace f env rest args calls result := by
  cases rest with
  | atom a => exact ⟨_, _, .malformed a args⟩
  | pair parameters body =>
    by_cases hargs : args.terminator = Atom.nil
    · obtain ⟨es, rfl⟩ := Expr.exists_eq_ofList hargs
      rcases exists_values_or_failure f env [] es with
        ⟨vs, hvs⟩ | ⟨before, e, after, vs, failure, rfl, hbefore, he⟩
      · exact exists_trace_of_values hvs parameters body
      · exact ⟨_, _, .argument parameters body hbefore he⟩
    · exact ⟨_, _, .improperArguments parameters body hargs⟩

theorem trace_iff_makes_remembering (f : Calls → Expr → Env → Except Failure Expr) (env : Env)
    (rest args : Expr) (calls : Calls) (result : Except Failure Expr) :
    Trace f env rest args calls result ↔
      Watched.Makes (apply (Evaluator.remembering f) rest args env) [] calls result := by
  refine ⟨Trace.makes, fun h => ?_⟩
  -- some way applies, and by its calls and its end it is this one
  obtain ⟨calls', result', htrace⟩ := exists_trace f env rest args
  obtain ⟨rfl, rfl⟩ := h.unique htrace.makes
  exact htrace

/-- **A lambda form evaluates each argument once, from left to right, in the environment of the
call, and then its body.** For every evaluator, which may fail on any call and may remember the
calls before, the calls that are made and the result are those of `Trace`. An evaluator without a
memory makes them in a plain run too. -/
theorem trace_iff_makes (env : Env) (rest args : Expr) (calls : Calls)
    (result : Except Failure Expr) :
    (∀ f : Calls → Expr → Env → Except Failure Expr, Trace f env rest args calls result ↔
      Watched.Makes (apply (Evaluator.remembering f) rest args env) [] calls result) ∧
    ∀ f : Expr → Env → Except Failure Expr, Trace (fun _ => f) env rest args calls result ↔
      (apply (Evaluator.watching f) rest args env).Makes calls result := by
  refine ⟨fun f => trace_iff_makes_remembering f env rest args calls result, fun f => ?_⟩
  have hembeds := embeds_apply (Evaluator.embeds_remembering f) rest args env
  obtain ⟨calls', result', htrace⟩ := exists_trace (fun _ => f) env rest args
  exact (trace_iff_makes_remembering _ env rest args calls result).trans
    (hembeds.makes_iff htrace.makes)

/-- Three times the same argument, of which the second fails. The third is not evaluated, and the
parameters, which are no list, are not looked at. -/
example :
    let f : Calls → Expr → Env → Except Failure Expr := fun before e _ =>
      if before.length = 1 then .error .tooDeep else .ok e
    let run := apply (Evaluator.remembering f) (.pair Expr.t Expr.t)
      (Expr.ofList [Expr.t, Expr.t, Expr.t]) Env.empty []
    run.calls = [(Expr.t, Env.empty), (Expr.t, Env.empty)] ∧
      run.result.map Prod.fst = .error .tooDeep := by
  decide +kernel

end Lambda

/-! ## Clauses -/

namespace Primitive

/-- The clauses with these predicates and values. -/
def clauses (cs : List (Expr × Expr)) : List Expr := cs.map fun c => .pair c.1 c.2

/-- Behind the calls before, the predicates of all these clauses are `nil`. -/
def PassedOver (f : Calls → Expr → Env → Except Failure Expr) (env : Env) (before : Calls)
    (cs : List (Expr × Expr)) : Prop :=
  Values f env before (cs.map Prod.fst) (cs.map fun _ => Expr.nil)

/-- Behind the calls before, choosing goes no further than the first of these clauses, or there is
none: the calls that are made there, and the end. -/
inductive StopsAt (f : Calls → Expr → Env → Except Failure Expr) (env : Env) (before : Calls) :
    List Expr → (calls : Calls) → (result : Except Failure Expr) → Prop where
  | none : StopsAt f env before [] [] (.ok Expr.nil)
  | refused (a : Atom) (after : List Expr) :
    StopsAt f env before (.atom a :: after) [] (.error (.error (.clauseNotAList (.atom a))))
  | failed {p : Expr} {failure : Failure} (x : Expr) (after : List Expr) :
    f before p env = .error failure →
    StopsAt f env before (.pair p x :: after) [(p, env)] (.error failure)
  | chosen {p holds : Expr} (x : Expr) (after : List Expr) :
    f before p env = .ok holds → holds ≠ Expr.nil →
    StopsAt f env before (.pair p x :: after) [(p, env), (x, env)]
      (f (before ++ [(p, env)]) x env)

/-- How it goes to choose among the clauses of a `cond` form: the calls that are made, and the
end. -/
inductive CondTrace (f : Calls → Expr → Env → Except Failure Expr) (env : Env) :
    (tail : Expr) → (calls : Calls) → (result : Except Failure Expr) → Prop where
  -- no clause is looked at if they are no list
  | improper {tail : Expr} : tail.terminator ≠ Atom.nil →
    CondTrace f env tail []
      (.error (.error (.improperList (text "cond clause list") tail.terminator)))
  -- a clause that is passed over costs the call of its predicate
  | stops {passed : List (Expr × Expr)} {rest : List Expr} {c : Calls}
    {r : Except Failure Expr} :
    PassedOver f env [] passed → StopsAt f env (passed.map (·.1, env)) rest c r →
    CondTrace f env (Expr.ofList (clauses passed ++ rest)) (passed.map (·.1, env) ++ c) r

variable {before c : Calls} {r : Except Failure Expr}

theorem StopsAt.makes {items : List Expr} (h : StopsAt f env before items c r) :
    Watched.Makes (chooseClause (Evaluator.remembering f) env items) before c r := by
  cases h with
  | none => exact .pure _
  | refused a after => exact ⟨rfl, rfl⟩
  | failed x after hp => exact (Evaluator.makes_remembering hp).bind_error
  | chosen x after hp hholds =>
    refine (Evaluator.makes_remembering hp).bind ?_
    rw [if_neg hholds]
    exact Evaluator.makes_remembering rfl

theorem makes_chooseClause_passed {passed : List (Expr × Expr)}
    (hpassed : PassedOver f env before passed) {rest : List Expr}
    (hrest : Watched.Makes (chooseClause (Evaluator.remembering f) env rest)
      (before ++ passed.map (·.1, env)) c r) :
    Watched.Makes (chooseClause (Evaluator.remembering f) env (clauses passed ++ rest)) before
      (passed.map (·.1, env) ++ c) r := by
  induction passed generalizing before with
  | nil =>
    rw [List.map_nil, List.append_nil] at hrest
    exact hrest
  | cons clause passed ih =>
    cases hpassed with
    | cons hclause hpassed =>
      refine (Evaluator.makes_remembering hclause).bind ?_
      rw [if_pos rfl]
      refine ih hpassed ?_
      rwa [List.append_assoc]

theorem CondTrace.makes {tail : Expr} (h : CondTrace f env tail c r) :
    Watched.Makes (apply (Evaluator.remembering f) .cond tail env) [] c r := by
  cases h with
  | improper h => exact .lift_bind_error (Expr.toList_of_terminator_ne h _)
  | stops hpassed hstops =>
    exact .lift_bind (Expr.toList_ofList _ _) (makes_chooseClause_passed hpassed hstops.makes)

theorem embeds_chooseClause {eval : Expr → Env → Watched Expr} {eval' : Evaluator}
    (h : ∀ e env, Watched.Embeds (eval e env) (eval' e env)) (env : Env) (items : List Expr) :
    Watched.Embeds (chooseClause eval env items) (chooseClause eval' env items) := by
  induction items with
  | nil => exact .pure _
  | cons clause items ih =>
    cases clause with
    | atom a => exact fun _ => rfl
    | pair p x =>
      refine (h p env).bind fun holds => ?_
      split
      · exact ih
      · exact h x env

theorem embeds_apply_cond {eval : Expr → Env → Watched Expr} {eval' : Evaluator}
    (h : ∀ e env, Watched.Embeds (eval e env) (eval' e env)) (tail : Expr) (env : Env) :
    Watched.Embeds (apply eval .cond tail env) (apply eval' .cond tail env) :=
  (Watched.Embeds.lift _).bind fun items => embeds_chooseClause h env items

/-- It stops at the first clause, where none is passed over. -/
theorem StopsAt.exists_first {items : List Expr} (h : StopsAt f env before items c r) :
    ∃ passed rest c r, items = clauses passed ++ rest ∧ PassedOver f env before passed ∧
      StopsAt f env (before ++ passed.map (·.1, env)) rest c r := by
  refine ⟨[], items, c, r, rfl, .nil before, ?_⟩
  rwa [List.map_nil, List.append_nil]

theorem exists_stopsAt (f : Calls → Expr → Env → Except Failure Expr) (env : Env)
    (before : Calls) (items : List Expr) :
    ∃ passed rest c r, items = clauses passed ++ rest ∧ PassedOver f env before passed ∧
      StopsAt f env (before ++ passed.map (·.1, env)) rest c r := by
  induction items generalizing before with
  | nil => exact StopsAt.none.exists_first
  | cons clause items ih =>
    cases clause with
    | atom a => exact (StopsAt.refused a items).exists_first
    | pair p x =>
      cases hp : f before p env with
      | error failure => exact (StopsAt.failed x items hp).exists_first
      | ok holds =>
        by_cases hholds : holds = Expr.nil
        · subst hholds
          obtain ⟨passed, rest, c, r, rfl, hpassed, hstops⟩ := ih (before ++ [(p, env)])
          refine ⟨(p, x) :: passed, rest, c, r, rfl, .cons hp hpassed, ?_⟩
          rwa [List.append_assoc] at hstops
        · exact (StopsAt.chosen x items hp hholds).exists_first

/-- **There is a way for everything that `cond` can be given.** -/
theorem exists_condTrace (f : Calls → Expr → Env → Except Failure Expr) (env : Env)
    (tail : Expr) : ∃ calls result, CondTrace f env tail calls result := by
  by_cases htail : tail.terminator = Atom.nil
  · obtain ⟨items, rfl⟩ := Expr.exists_eq_ofList htail
    obtain ⟨passed, rest, c, r, rfl, hpassed, hstops⟩ := exists_stopsAt f env [] items
    exact ⟨_, _, .stops hpassed hstops⟩
  · exact ⟨_, _, .improper htail⟩

theorem condTrace_iff_makes_remembering (f : Calls → Expr → Env → Except Failure Expr) (env : Env)
    (tail : Expr) (calls : Calls) (result : Except Failure Expr) :
    CondTrace f env tail calls result ↔
      Watched.Makes (apply (Evaluator.remembering f) .cond tail env) [] calls result := by
  refine ⟨CondTrace.makes, fun h => ?_⟩
  obtain ⟨calls', result', htrace⟩ := exists_condTrace f env tail
  obtain ⟨rfl, rfl⟩ := h.unique htrace.makes
  exact htrace

/-- **`cond` evaluates predicates in order up to the first that is not `nil`, then the value of that
clause, and nothing else.** For every evaluator, which may fail on any call and may remember the
calls before, the calls that are made and the result are those of `CondTrace`. What stands behind
the chosen clause changes nothing, whatever it is. For an evaluator without a memory the same holds
of plain runs. -/
theorem condTrace_iff_makes (env : Env) :
    (∀ f : Calls → Expr → Env → Except Failure Expr,
      (∀ tail calls result, CondTrace f env tail calls result ↔
        Watched.Makes (apply (Evaluator.remembering f) .cond tail env) [] calls result) ∧
      ∀ passed p x holds, PassedOver f env [] passed →
        f (passed.map (·.1, env)) p env = .ok holds → holds ≠ Expr.nil →
        ∀ after after' : List Expr,
          let run := fun after => apply (Evaluator.remembering f) .cond
            (Expr.ofList (clauses passed ++ .pair p x :: after)) env []
          (run after').calls = (run after).calls ∧ (run after').result = (run after).result) ∧
    ∀ f : Expr → Env → Except Failure Expr,
      (∀ tail calls result, CondTrace (fun _ => f) env tail calls result ↔
        (apply (Evaluator.watching f) .cond tail env).Makes calls result) ∧
      ∀ passed p x holds, PassedOver (fun _ => f) env [] passed →
        f p env = .ok holds → holds ≠ Expr.nil →
        ∀ after after' : List Expr,
          let run := fun after => apply (Evaluator.watching f) .cond
            (Expr.ofList (clauses passed ++ .pair p x :: after)) env
          (run after').calls = (run after).calls ∧ (run after').result = (run after).result := by
  refine ⟨fun f => ⟨condTrace_iff_makes_remembering f env, ?_⟩,
    fun f => ⟨fun tail calls result => ?_, ?_⟩⟩
  · intro passed p x holds hpassed hp hholds after after' run
    have hmakes := fun after => (CondTrace.stops hpassed (.chosen x after hp hholds)).makes
    exact Run.Makes.same (hmakes after') (hmakes after)
  · have hembeds := embeds_apply_cond (Evaluator.embeds_remembering f) tail env
    obtain ⟨calls', result', htrace⟩ := exists_condTrace (fun _ => f) env tail
    exact (condTrace_iff_makes_remembering _ env tail calls result).trans
      (hembeds.makes_iff htrace.makes)
  · intro passed p x holds hpassed hp hholds after after' run
    have hmakes := fun after => (embeds_apply_cond (Evaluator.embeds_remembering f) _ env).makes
      (CondTrace.stops hpassed (.chosen x after hp hholds)).makes
    exact Run.Makes.same (hmakes after') (hmakes after)

/-- The second of two clauses is chosen, by an evaluator that takes no call twice. The value of the
first cannot be found, and behind the second there is nothing, or a clause that would be refused. -/
theorem condTrace_iff_makes_second :
    let x : Expr := .atom ⟨text "x", by decide⟩
    let f : Calls → Expr → Env → Except Failure Expr := fun before e env =>
      if (e, env) ∈ before then .error .tooDeep else (evaluate 1 e env).result
    let env : Env := Env.initial
    let passed : List (Expr × Expr) := [(Expr.nil, x)]
    let value : Expr := .pair (.atom Primitive.quote.name) x
    let run := fun after => apply (Evaluator.remembering f) .cond
      (Expr.ofList (clauses passed ++ .pair Expr.t value :: after)) env []
    PassedOver f env [] passed ∧ f (passed.map (·.1, env)) Expr.t env = .ok Expr.t ∧
      Expr.t ≠ Expr.nil ∧ f [] x env ≠ .ok x ∧
      (run []).calls = [(Expr.nil, env), (Expr.t, env), (value, env)] ∧
      (run []).result.map Prod.fst = .ok x ∧
      (run [x]).calls = (run []).calls ∧ (run [x]).result = (run []).result := by
  intro x f env passed value run
  have hpassed : PassedOver f env [] passed := .cons (by decide +kernel) (.nil _)
  have hp : f (passed.map (·.1, env)) Expr.t env = .ok Expr.t := by decide +kernel
  have hholds : Expr.t ≠ Expr.nil := by decide
  obtain ⟨hiff, hsame⟩ := (condTrace_iff_makes env).1 f
  have hmakes := (hiff _ _ _).mp (.stops hpassed (.chosen value [] hp hholds))
  exact ⟨hpassed, hp, hholds, by decide +kernel, hmakes.calls_eq, by decide +kernel,
    hsame passed Expr.t value Expr.t hpassed hp hholds [] [x]⟩

end Primitive

end DottedLisp
