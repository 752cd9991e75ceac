import DottedLisp.Env

/-!
# Runs

A run has a result, which may be a failure, and notes of what happened on the way, in order. The
notes stay when the run fails. `Run` is a monad: a second run starts where the first one succeeded,
and its notes follow.
-/

namespace DottedLisp

/-- Something that happened during a run. -/
inductive Note where
  /-- A text of dotted notation is about to be read and evaluated. -/
  | evaluating (code : Text)
  | label (name : Atom)
  /-- A procedure is applied, with these bindings of its parameters. -/
  | bindings (list : Expr)
  /-- A watched evaluator is called. -/
  | call (expr : Expr) (env : Env)
  /-- A console text reached the nesting limit. -/
  | abandoned (code : Text)
  /-- A service takes connections. -/
  | listening (host : Text) (port : Int)
  | connected (peer : Text)
  /-- A client is served to its end. -/
  | disconnected (peer : Text)
deriving DecidableEq

/-- A computation with notes that may fail with a `φ`. -/
structure Run (φ α : Type) where
  /-- What happened, in order. -/
  notes : List Note
  result : Except φ α

namespace Run

variable {φ α β : Type}

/-- One run after the other. The second one sees the value of the first. -/
def andThen (x : Run φ α) (f : α → Run φ β) : Run φ β :=
  match x.result with
  | .error e => ⟨x.notes, .error e⟩
  | .ok a =>
    let y := f a
    ⟨x.notes ++ y.notes, y.result⟩

instance : Monad (Run φ) where
  pure a := ⟨[], .ok a⟩
  bind := andThen

/-- A run that fails at once. -/
def fail (e : φ) : Run φ α := ⟨[], .error e⟩

/-- A run that fails at once with an error of the language. -/
def refuse (e : Error) : Run Failure α := fail (.error e)

/-- A run that only leaves a note. -/
def note (n : Note) : Run φ Unit := ⟨[n], .ok ()⟩

/-- A result without notes. -/
def ofExcept (r : Except φ α) : Run φ α := ⟨[], r⟩

instance : MonadLift (Except Error) (Run Failure) where
  monadLift r := ofExcept (r.mapError .error)

/-! ## Views -/

@[simp] theorem notes_pure (a : α) : (pure a : Run φ α).notes = [] := rfl

@[simp] theorem result_pure (a : α) : (pure a : Run φ α).result = .ok a := rfl

/-- **The result of a composed run is the composition of the results.** -/
@[simp] theorem result_bind (x : Run φ α) (f : α → Run φ β) :
    (x >>= f).result = x.result.bind fun a => (f a).result := by
  cases x with
  | mk notes result => cases result <;> rfl

theorem ext {x y : Run φ α} (h₁ : x.notes = y.notes) (h₂ : x.result = y.result) : x = y := by
  cases x; cases y; cases h₁; cases h₂; rfl

private theorem map_id_run (x : Run φ α) : id <$> x = x := by
  cases x with
  | mk notes result => cases result <;> simp [Functor.map, andThen]

private theorem bind_assoc_run {γ : Type} (x : Run φ α) (f : α → Run φ β) (g : β → Run φ γ) :
    x >>= f >>= g = x >>= fun a => f a >>= g := by
  cases x with
  | mk notes result =>
    cases result with
    | error e => rfl
    | ok a =>
      simp only [bind, andThen]
      cases (f a).result <;> simp

instance : LawfulMonad (Run φ) :=
  LawfulMonad.mk' (Run φ) map_id_run (fun _ _ => rfl) bind_assoc_run

end Run

end DottedLisp
