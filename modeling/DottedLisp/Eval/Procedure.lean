import DottedLisp.Eval.Primitive

/-!
# Applying procedures

A procedure is an expression: the name of a primitive, a form `(lambda . (parameters . body))`, or a
form `(label . (name . procedure))`.

A lambda form evaluates its arguments from left to right and sees the bindings of its caller: its
parameters are put in front of the environment of the call. A label form binds its name to its
procedure and calls the name, so that the procedure can call itself.
-/

namespace DottedLisp

variable {m : Type → Type} [Monad m] [MonadLiftT (Except Error) m] [MonadLiftT (Run Failure) m]

/-- The two parts of a procedure form. -/
def Procedure.parts (form : Procedure) : Expr → Except Error (Expr × Expr)
  | .pair x y => .ok (x, y)
  | rest => .error (.malformedProcedure form rest)

namespace Label

/-- The name and the procedure of a label form. The name is an atom, and no primitive's. -/
def parts (rest : Expr) : Except Error (Atom × Expr) := do
  match ← Procedure.label.parts rest with
  | (.atom name, procedure) =>
    if (Primitive.ofAtom? name).isSome then throw (.labelPrimitive name)
    else return (name, procedure)
  | (name, _) => throw (.labelNotAtom name)

/-- Apply a label form. -/
def apply (eval : Expr → Env → m Expr) (rest args : Expr) (env : Env) : m Expr := do
  let (name, procedure) ← parts rest
  (Run.note (.label name) : Run Failure Unit)
  eval (.pair (.atom name) args) (env.bind name procedure)

end Label

namespace Lambda

/-- The values of a list of arguments, from left to right. -/
def arguments (eval : Expr → Env → m Expr) (args : Expr) (env : Env) : m Expr := do
  let args ← args.toList (text "argument list")
  let values ← args.mapM fun arg => eval arg env
  return Expr.ofList values

/-- Apply a lambda form. -/
def apply (eval : Expr → Env → m Expr) (rest args : Expr) (env : Env) : m Expr := do
  let (parameters, body) ← Procedure.lambda.parts rest
  let values ← arguments eval args env
  let bindings ← Env.ofParameters parameters values
  (Run.note (.bindings bindings) : Run Failure Unit)
  let inner ← bindings.append env
  eval body inner

end Lambda

namespace Procedure

/-- A procedure form is its own value, if it is in order. A pair that is no label form counts as a
lambda form. -/
def value (head rest : Expr) : Except Error Expr := do
  if head = .atom label.head then discard <| Label.parts rest else discard <| lambda.parts rest
  return .pair head rest

/-- Apply a procedure to arguments that are not yet evaluated. -/
def apply (eval : Expr → Env → m Expr) (procedure args : Expr) (env : Env) : m Expr :=
  match procedure with
  | .atom name =>
    match Primitive.ofAtom? name with
    | some p => p.apply eval args env
    | none => Run.refuse (.notAFunction name)
  | .pair (.atom head) rest =>
    match ofAtom? head with
    | some .label => Label.apply eval rest args env
    | some .lambda => Lambda.apply eval rest args env
    | none => Run.refuse (.noRule (.pair procedure args))
  | .pair _ _ => Run.refuse (.noRule (.pair procedure args))

end Procedure

end DottedLisp
