import DottedLisp.Proofs.Eval.Limit
import Mathlib.Logic.Equiv.Basic

/-!
# Evaluation does not look into names

Eleven names are reserved: the truth atoms, the primitives and the heads of procedure forms. All
other names are alike to evaluation, which only asks whether two of them are the same. So a change
of names that keeps different names apart and leaves the reserved ones alone goes through every
evaluation.

Two evaluations whose names go together by such a change are a `Simulation`. What it needs is that
no other name is taken for a reserved one (`Renaming.ofAtom?_eq`) and that look-ups in the
environment with the new names give what they gave before (`Renaming.lookup_rename`).
-/

namespace DottedLisp

/-- Does evaluation know the name? -/
def Atom.isReserved (a : Atom) : Bool := a = Atom.t ∨ a = Atom.nil ∨ a.isForm

/-- A change of names. -/
structure Renaming where
  map : Atom → Atom
  injective : Function.Injective map
  map_reserved {a : Atom} : a.isReserved = true → map a = a

/-- The expression with every name changed. -/
def Expr.rename (r : Renaming) : Expr → Expr
  | .atom a => .atom (r.map a)
  | .pair x y => .pair (x.rename r) (y.rename r)

namespace Renaming

/-- Two names exchanged. -/
def swap (a b : Atom) (ha : a.isReserved = false) (hb : b.isReserved = false) : Renaming where
  map := Equiv.swap a b
  injective := (Equiv.swap a b).injective
  map_reserved := by
    intro c hc
    have hca : c ≠ a := by
      rintro rfl
      simp [hc] at ha
    have hcb : c ≠ b := by
      rintro rfl
      simp [hc] at hb
    exact Equiv.swap_apply_of_ne_of_ne hca hcb

variable (r : Renaming)

theorem like_iff {e e' : Expr} : e.Like (fun a b => r.map a = b) e' ↔ e.rename r = e' := by
  constructor
  · intro h
    induction h with
    | atom h => rw [Expr.rename, h]
    | pair _ _ hx hy => rw [Expr.rename, hx, hy]
  · rintro rfl
    induction e with
    | atom a => exact .atom rfl
    | pair x y hx hy => exact .pair hx hy

/-- Only a reserved name becomes a reserved name. -/
theorem map_eq_of_isReserved {a : Atom} (h : (r.map a).isReserved = true) : r.map a = a :=
  r.injective (r.map_reserved h)

/-- What is known of reserved names only is known of a name before and after. -/
theorem ofAtom?_eq {α : Type} {ofAtom? : Atom → Option α}
    (hreserved : ∀ {a : Atom}, (ofAtom? a).isSome = true → a.isReserved = true) (a : Atom) :
    ofAtom? a = ofAtom? (r.map a) := by
  by_cases ha : a.isReserved = true
  · rw [r.map_reserved ha]
  · have hold : ofAtom? a = none := Option.not_isSome_iff_eq_none.mp (mt hreserved ha)
    have hnew : ofAtom? (r.map a) = none := by
      refine Option.not_isSome_iff_eq_none.mp fun h => ha ?_
      have hmap := hreserved h
      rwa [r.map_eq_of_isReserved hmap] at hmap
    rw [hold, hnew]

/-- **A look-up of the new name gives the old value with new names**, or an error of the same
kind. -/
theorem lookup_rename (x : Atom) (env : Env) :
    (Env.lookup (r.map x) (env.rename r)).mapError Error.kind =
      ((env.lookup x).map (Expr.rename r)).mapError Error.kind := by
  -- what is no list of bindings is refused on both sides, and the refusals differ in the names they
  -- show
  induction env with
  | atom a => rfl
  | pair binding rest _ ih =>
    cases binding with
    | atom a => rfl
    | pair name value =>
      have hname : name.rename r = .atom (r.map x) ↔ name = .atom x := by
        cases name with
        | atom a => simp [Expr.rename, r.injective.eq_iff]
        | pair _ _ => simp [Expr.rename]
      by_cases hx : name = .atom x
      · simp [Expr.rename, Env.lookup, hx, Except.map, Except.mapError]
      · have hx' : name.rename r ≠ .atom (r.map x) := mt hname.mp hx
        simpa [Expr.rename, Env.lookup, hx, hx'] using ih

theorem lookup_rename_ok {x : Atom} {env : Env} {v : Expr} (h : env.lookup x = .ok v) :
    Env.lookup (r.map x) (env.rename r) = .ok (v.rename r) := by
  have hlookup := r.lookup_rename x env
  rw [h] at hlookup
  cases hnew : Env.lookup (r.map x) (env.rename r) with
  | ok w =>
    rw [hnew] at hlookup
    exact congrArg _ (Except.ok.inj hlookup)
  | error e' => rw [hnew] at hlookup; cases hlookup

theorem lookup_rename_error {x : Atom} {env : Env} {e : Error} (h : env.lookup x = .error e) :
    ∃ e', Env.lookup (r.map x) (env.rename r) = .error e' ∧ e.kind = e'.kind := by
  have hlookup := r.lookup_rename x env
  rw [h] at hlookup
  cases hnew : Env.lookup (r.map x) (env.rename r) with
  | ok w => rw [hnew] at hlookup; cases hlookup
  | error e' =>
    rw [hnew] at hlookup
    exact ⟨e', rfl, (Except.error.inj hlookup).symm⟩

end Renaming

theorem Error.Like.kind_eq {names : Atom → Atom → Prop} {e e' : Error} (h : e.Like names e') :
    e.kind = e'.kind := by
  cases h <;> rfl

/-- Failures of one kind. -/
inductive Failure.SameKind : Failure → Failure → Prop where
  | error {e e' : Error} : e.kind = e'.kind → SameKind (.error e) (.error e')
  | tooDeep : SameKind .tooDeep .tooDeep

/-- An evaluation before and after a change of names. -/
def Simulation.renaming (r : Renaming) : Simulation where
  Names a b := r.map a = b
  Envs env env' := env.rename r = env'
  Failures := Failure.SameKind
  Forgiven _ := False
  eq_iff_eq := by
    rintro a _ a' _ rfl rfl
    exact r.injective.eq_iff.symm
  names_t := r.map_reserved (by decide)
  names_nil := r.map_reserved (by decide)
  primitive_eq := by
    rintro a _ rfl
    exact r.ofAtom?_eq (fun h => by simp [Atom.isReserved, Atom.isForm, h]) a
  procedure_eq := by
    rintro a _ rfl
    exact r.ofAtom?_eq (fun h => by simp [Atom.isReserved, Atom.isForm, h]) a
  envs_bind := by
    rintro x _ v w env _ rfl hvw rfl
    obtain rfl := r.like_iff.mp hvw
    rfl
  lookup_ok := by
    rintro x _ v env _ rfl rfl hv
    exact ⟨v.rename r, r.lookup_rename_ok hv, r.like_iff.mpr rfl⟩
  lookup_error := by
    rintro x _ e env _ rfl rfl he
    obtain ⟨e', he', hkind⟩ := r.lookup_rename_error he
    exact .inr ⟨e', he', .error hkind⟩
  failures_error h := .error h.kind_eq

/-- **Evaluation treats all names alike that are not reserved.** After a change of names in the
expression and in the environment the value is the old one with new names, an error is one of the
same kind, and the nesting limit is reached where it was reached before. -/
theorem evaluate_rename (r : Renaming) (limit : Nat) (e : Expr) (env : Env) :
    let old := (evaluate limit e env).result
    let new := (evaluate limit (e.rename r) (env.rename r)).result
    (∀ v, old = .ok v → new = .ok (v.rename r)) ∧
      (∀ f, old = .error (.error f) → ∃ f', new = .error (.error f') ∧ f'.kind = f.kind) ∧
      (old = .error .tooDeep → new = .error .tooDeep) := by
  intro old new
  have hevaluators : (Simulation.renaming r).Evaluators (evaluate limit) (evaluate limit) :=
    Simulation.evaluators_evaluate_same (.inr Failure.SameKind.tooDeep) limit
  have hlike : e.Like (fun a b => r.map a = b) (e.rename r) := r.like_iff.mpr rfl
  have hruns := hevaluators hlike (rfl : env.rename r = env.rename r)
  refine ⟨fun v hv => ?_, fun f hf => ?_, fun hdeep => ?_⟩
  · obtain ⟨w, hw, hvw⟩ := hruns.exists_ok hv
    rwa [← r.like_iff.mp hvw] at hw
  · obtain ⟨f', hf', hkind⟩ := hruns.exists_error id hf
    cases hkind with
    | error hkind => exact ⟨_, hf', hkind.symm⟩
  · obtain ⟨f', hf', hkind⟩ := hruns.exists_error id hdeep
    cases hkind with
    | tooDeep => exact hf'

/-- A parameter and a name of the environment change places. -/
theorem evaluate_rename_swap :
    let x : Atom := ⟨text "x", by decide⟩
    let y : Atom := ⟨text "y", by decide⟩
    let r := Renaming.swap x y (by decide) (by decide)
    let env : Env := .pair (.pair (.atom y) (.atom x)) Expr.nil
    let body : Expr := .pair (.atom Primitive.cons.name) (.pair (.atom x) (.atom y))
    let e : Expr := .pair
      (.pair (.atom Procedure.lambda.head) (.pair (.pair (.atom x) Expr.nil) body))
      (.pair (.pair (.atom Primitive.quote.name) (.atom y)) Expr.nil)
    (evaluate 3 e env).result = .ok (.pair (.atom y) (.atom x)) ∧
      (evaluate 3 (e.rename r) (env.rename r)).result = .ok (.pair (.atom x) (.atom y)) := by
  intro x y r env body e
  have hold : (evaluate 3 e env).result = .ok (.pair (.atom y) (.atom x)) := by decide +kernel
  have hvalue : (Expr.pair (.atom y) (.atom x)).rename r = .pair (.atom x) (.atom y) := by
    decide +kernel
  have hnew := (evaluate_rename r 3 e env).1 _ hold
  rw [hvalue] at hnew
  exact ⟨hold, hnew⟩

end DottedLisp
