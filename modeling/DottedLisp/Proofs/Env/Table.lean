import DottedLisp.Expr.Equal
import DottedLisp.Proofs.Eval.Outcome

/-!
# Environments as tables

An environment that is built by the operations alone is a table of values by name. Each operation
changes the table in the way one expects: what it binds hides what was bound before, the first of
several bindings of one name in one operation counts, and an operation that is refused changes
nothing.

The table of a history (`Env.table`) is made without environments. A history and its environment
hold the same table (`Env.Holds`): every step keeps that up (`Env.Holds.next`), so every history
does.
-/

namespace DottedLisp

theorem Expr.sameWithin_atom (e : Expr) (x : Atom) (limit : Nat) :
    e.sameWithin (.atom x) limit = .ok (decide (e = .atom x)) := by
  cases e <;> simp [sameWithin]

namespace Env

/-! ## Lists of bindings -/

/-- The bindings in front of an environment. -/
def ofBindings (bs : List (Atom × Expr)) (outer : Env := empty) : Env :=
  Expr.ofList (bs.map fun b => .pair (.atom b.1) b.2) outer

theorem ofBindings_append (bs cs : List (Atom × Expr)) :
    ofBindings (bs ++ cs) = ofBindings bs (ofBindings cs) := by
  simp [ofBindings, Expr.ofList]

theorem lookup_ofBindings (bs : List (Atom × Expr)) (x : Atom) :
    (ofBindings bs).lookup x = match bs.lookup x with
      | some v => .ok v
      | none => .error (.unbound (.atom x)) := by
  induction bs with
  | nil => rfl
  | cons b bs ih =>
    have hbind : ofBindings (b :: bs) = (ofBindings bs).bind b.1 b.2 := rfl
    rw [hbind, lookup_bind, List.lookup_cons]
    by_cases hx : b.1 = x
    · simp [hx]
    · have hx' : (x == b.1) = false := beq_false_of_ne (Ne.symm hx)
      rw [if_neg hx, ih, hx']

/-- With an atom for a key, searching is looking up. -/
theorem search_atom (limit : Nat) (x : Atom) (env : Env) :
    search limit (.atom x) env = (env.lookup x).mapError .error := by
  induction env with
  | atom a => rfl
  | pair binding rest _ ih =>
    cases binding with
    | atom a => rfl
    | pair name value =>
      rw [search, Expr.sameWithin_atom, lookup]
      by_cases hx : name = .atom x
      · simp only [hx, decide_true, if_true]
        rfl
      · simp only [hx, decide_false, if_false]
        exact ih

/-! ## Steps -/

/-- An operation that makes a new environment of the present one. -/
inductive Step where
  /-- Start anew with the truth atoms. -/
  | reset
  | bind (name value : Expr)
  /-- Bind parameters to arguments. -/
  | parameters (names values : Expr)
  | texts (bindings : List (Text × Expr))

namespace Step

/-- Carry out a step. -/
def apply (env : Env) : Step → Except Error Env
  | .reset => .ok initial
  | .bind name value => env.bindExpr name value
  | .parameters names values => do (← ofParameters names values).append env
  | .texts bindings => ofTexts bindings env

/-- The environment after a step. One that is refused leaves it as it was. -/
def next (env : Env) (step : Step) : Env :=
  match step.apply env with
  | .ok env' => env'
  | .error _ => env

end Step

/-! ## Tables -/

/-- Values by name. -/
abbrev Table := Atom → Option Expr

namespace Table

/-- The table with bindings put over it; the first one of a name counts. -/
def extend (m : Table) (bs : List (Atom × Expr)) : Table := fun x => (bs.lookup x).or (m x)

/-- The truth atoms, each with itself as its value. -/
def initial : Table := fun x => if x = Atom.t ∨ x = Atom.nil then some (.atom x) else none

end Table

/-- The names and values of two lists of the same length, along both at once. -/
def pairUp? : Expr → Expr → Option (List (Atom × Expr))
  | .pair (.atom x) names, .pair v values => (pairUp? names values).map ((x, v) :: ·)
  | .atom a, .atom b => if a = Atom.nil ∧ b = Atom.nil then some [] else none
  | _, _ => none

/-- The bindings of texts, all of which have to be names. -/
def named? : List (Text × Expr) → Option (List (Atom × Expr))
  | [] => some []
  | (name, v) :: rest => do
    let x ← Atom.ofText? name
    return (x, v) :: (← named? rest)

/-- What a step makes of a table. -/
def Step.update (m : Table) : Step → Table
  | .reset => Table.initial
  | .bind (.atom x) v => m.extend [(x, v)]
  | .bind _ _ => m
  | .parameters names values => (pairUp? names values).elim m m.extend
  | .texts bindings => (named? bindings).elim m m.extend

/-- The environment after a history that starts with no bindings. -/
def after (steps : List Step) : Env := steps.foldl Step.next empty

/-- The table after a history. -/
def table (steps : List Step) : Table := steps.foldl Step.update fun _ => none

/-! ## Parameters and texts -/

theorem pairUp?_eq_some_iff {names values : Expr} {bs : List (Atom × Expr)} :
    pairUp? names values = some bs ↔
      names = Expr.ofList ((bs.map Prod.fst).map Expr.atom) ∧
        values = Expr.ofList (bs.map Prod.snd) := by
  constructor
  · intro h
    induction names generalizing values bs with
    | atom a =>
      cases values with
      | pair _ _ => cases h
      | atom b =>
        rw [pairUp?] at h
        split at h
        · next hnil =>
          cases h
          exact ⟨by rw [hnil.1]; rfl, by rw [hnil.2]; rfl⟩
        · cases h
    | pair name names _ ih =>
      cases name with
      | pair _ _ => cases values <;> cases h
      | atom x =>
        cases values with
        | atom b => cases h
        | pair v values =>
          obtain ⟨cs, hcs, rfl⟩ := Option.map_eq_some_iff.mp h
          obtain ⟨rfl, rfl⟩ := ih hcs
          exact ⟨rfl, rfl⟩
  · rintro ⟨rfl, rfl⟩
    induction bs with
    | nil => rfl
    | cons b bs ih => exact congrArg (Option.map ((b.1, b.2) :: ·)) ih

theorem zip_fst_snd (bs : List (Atom × Expr)) :
    zip (bs.map Prod.fst) (bs.map Prod.snd) = bs.map fun b => .pair (.atom b.1) b.2 := by
  induction bs with
  | nil => rfl
  | cons b bs ih => exact congrArg (_ :: ·) ih

/-- **Parameters are bound exactly when names and values go together along both lists.** -/
theorem ofParameters_eq_ok_iff_pairUp? {names values : Expr} {env : Env} :
    ofParameters names values = .ok env ↔
      ∃ bs, pairUp? names values = some bs ∧ env = ofBindings bs := by
  simp only [ofParameters_eq_ok_iff, pairUp?_eq_some_iff]
  constructor
  · rintro ⟨xs, vs, rfl, rfl, hlength, rfl⟩
    have hxs : (xs.zip vs).map Prod.fst = xs := List.map_fst_zip (by omega)
    have hvs : (xs.zip vs).map Prod.snd = vs := List.map_snd_zip (by omega)
    refine ⟨xs.zip vs, ⟨by rw [hxs], by rw [hvs]⟩, ?_⟩
    rw [ofBindings, ← zip_fst_snd, hxs, hvs]
    rfl
  · rintro ⟨bs, ⟨rfl, rfl⟩, rfl⟩
    refine ⟨bs.map Prod.fst, bs.map Prod.snd, rfl, rfl, by simp, ?_⟩
    rw [zip_fst_snd]
    rfl

theorem ofTexts_cons (name : Text) (v : Expr) (rest : List (Text × Expr)) (outer : Env) :
    ofTexts ((name, v) :: rest) outer = match Atom.ofText? name with
      | some x => (ofTexts rest outer).map (bind x v)
      | none => .error (.illegalName name) := by
  unfold ofTexts
  rw [List.mapM_cons]
  dsimp only
  cases Atom.ofText? name with
  | none => rfl
  | some x =>
    generalize (List.mapM _ rest : Except Error (List Expr)) = pairs
    cases pairs <;> rfl

/-- **Texts are bound exactly when all of them are names.** -/
theorem ofTexts_eq_ok_iff {bindings : List (Text × Expr)} {outer env : Env} :
    ofTexts bindings outer = .ok env ↔
      ∃ bs, named? bindings = some bs ∧ env = ofBindings bs outer := by
  induction bindings generalizing env with
  | nil =>
    constructor
    · intro h
      cases h
      exact ⟨[], rfl, rfl⟩
    · rintro ⟨_, h, rfl⟩
      cases h
      rfl
  | cons b bindings ih =>
    obtain ⟨name, v⟩ := b
    rw [ofTexts_cons, named?]
    cases Atom.ofText? name with
    | none => simp
    | some x =>
      constructor
      · intro h
        cases hrest : ofTexts bindings outer with
        | error e => rw [hrest] at h; cases h
        | ok inner =>
          rw [hrest] at h
          cases h
          obtain ⟨bs, hbs, rfl⟩ := ih.mp hrest
          exact ⟨(x, v) :: bs, by rw [hbs]; rfl, rfl⟩
      · rintro ⟨bs, hbs, rfl⟩
        cases hrest : named? bindings with
        | none => rw [hrest] at hbs; cases hbs
        | some cs =>
          rw [hrest] at hbs
          cases hbs
          dsimp only
          rw [ih.mpr ⟨cs, hrest, rfl⟩]
          rfl

/-! ## Histories -/

/-- The environment is a list of bindings, and its look-ups are those of the table. -/
def Holds (env : Env) (m : Table) : Prop := ∃ bs, env = ofBindings bs ∧ ∀ x, bs.lookup x = m x

namespace Holds

variable {env : Env} {m : Table}

theorem extend (h : env.Holds m) (bs : List (Atom × Expr)) :
    Holds (ofBindings bs env) (m.extend bs) := by
  obtain ⟨cs, rfl, hcs⟩ := h
  refine ⟨bs ++ cs, (ofBindings_append bs cs).symm, fun x => ?_⟩
  rw [List.lookup_append, hcs, Table.extend]

theorem lookup_eq (h : env.Holds m) (x : Atom) :
    env.lookup x = match m x with
      | some v => .ok v
      | none => .error (.unbound (.atom x)) := by
  obtain ⟨bs, rfl, hbs⟩ := h
  rw [lookup_ofBindings, hbs]

/-- A step that either puts bindings in front or is refused. -/
theorem next_of_apply_iff (h : env.Holds m) {step : Step} {bs? : Option (List (Atom × Expr))}
    (happly : ∀ {env'}, step.apply env = .ok env' ↔
      ∃ bs, bs? = some bs ∧ env' = ofBindings bs env) :
    (step.next env).Holds (bs?.elim m m.extend) := by
  unfold Step.next
  cases hstep : step.apply env with
  | ok env' =>
    obtain ⟨bs, rfl, rfl⟩ := happly.mp hstep
    exact h.extend bs
  | error e =>
    -- with bindings to put in front the step would not have been refused
    have hnone : bs? = none := by
      refine Option.eq_none_iff_forall_not_mem.mpr fun bs hbs => ?_
      have hok := happly.mpr ⟨bs, hbs, rfl⟩
      rw [hstep] at hok
      cases hok
    rw [hnone]
    exact h

/-- **Every step does to the environment what it does to the table.** -/
theorem next (h : env.Holds m) (step : Step) : (step.next env).Holds (step.update m) := by
  cases step with
  | reset =>
    -- the table does not depend on the old one, so neither do the bindings
    refine ⟨[(Atom.t, Expr.t), (Atom.nil, Expr.nil)], rfl, fun x => ?_⟩
    by_cases ht : x = Atom.t
    · subst ht
      rfl
    · by_cases hnil : x = Atom.nil
      · subst hnil
        rfl
      · have ht' : (x == Atom.t) = false := beq_false_of_ne ht
        have hnil' : (x == Atom.nil) = false := beq_false_of_ne hnil
        simp [Step.update, Table.initial, List.lookup_cons, ht, ht', hnil, hnil']
  | bind name v =>
    cases name with
    | atom x => exact h.extend [(x, v)]
    | pair _ _ => exact h
  | parameters names values =>
    refine h.next_of_apply_iff fun {env'} => ?_
    simp only [Step.apply, Except.bind_eq_ok_iff, ofParameters_eq_ok_iff_pairUp?]
    constructor
    · rintro ⟨_, ⟨bs, hbs, rfl⟩, happend⟩
      rw [ofBindings, empty, append_ofList] at happend
      cases happend
      exact ⟨bs, hbs, rfl⟩
    · rintro ⟨bs, hbs, rfl⟩
      exact ⟨_, ⟨bs, hbs, rfl⟩, append_ofList _ _⟩
  | texts bindings => exact h.next_of_apply_iff ofTexts_eq_ok_iff

theorem run (h : env.Holds m) (steps : List Step) :
    Holds (steps.foldl Step.next env) (steps.foldl Step.update m) := by
  induction steps generalizing env m with
  | nil => exact h
  | cons step steps ih => exact ih (h.next step)

end Holds

theorem holds_after (steps : List Step) : (after steps).Holds (table steps) := by
  have hstart : empty.Holds fun _ => none := ⟨[], rfl, fun _ => rfl⟩
  exact hstart.run steps

/-- **Environments are tables in which the latest binding counts.** After any history of steps,
refused ones among them, the environment is a list of bindings of atoms. A look-up gives the value
that the table has for the name, and where the table has none it says that the name is unbound; it
never finds a malformed binding. -/
theorem lookup_after (steps : List Step) :
    (∃ bs : List (Atom × Expr), after steps = ofBindings bs) ∧
      ∀ x, (after steps).lookup x = (match table steps x with
          | some v => .ok v
          | none => .error (.unbound (.atom x))) ∧
        ∀ limit, (after steps).search limit (.atom x) = match table steps x with
          | some v => .ok v
          | none => .error (.error (.unbound (.atom x))) := by
  have hholds := holds_after steps
  obtain ⟨bs, hbs, -⟩ := holds_after steps
  refine ⟨⟨bs, hbs⟩, fun x => ⟨hholds.lookup_eq x, fun limit => ?_⟩⟩
  rw [search_atom, hholds.lookup_eq]
  cases table steps x <;> rfl

end Env

end DottedLisp
