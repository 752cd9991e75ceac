import DottedLisp.Expr.ProperList

/-!
# Environments

An environment is an ordinary expression: a list of bindings, each a pair of a name and a value. The
first binding of a name is the one that counts, so extending an environment in front shadows what is
behind and changes nothing for those who still hold the old one.

Nothing forces an expression that is used as an environment to be a list of bindings. A look-up that
meets an element that is no pair is an error; what ends the spine does not matter.
-/

namespace DottedLisp

/-- An environment, by use. -/
abbrev Env := Expr

namespace Env

/-- No bindings. -/
def empty : Env := Expr.nil

/-- The truth atoms, each bound to itself. -/
def initial : Env := Expr.ofList [.pair Expr.t Expr.t, .pair Expr.nil Expr.nil]

/-- The value of an atom: that of its first binding. -/
def lookup (x : Atom) : Env → Except Error Expr
  | .atom _ => .error (.unbound (.atom x))
  | .pair (.pair name value) rest => if name = .atom x then .ok value else lookup x rest
  | .pair binding _ => .error (.malformedBinding binding)

/-- The environment with one more binding in front. -/
def bind (x : Atom) (value : Expr) (env : Env) : Env := .pair (.pair (.atom x) value) env

/-- **A binding in front counts for its name and for no other.** -/
theorem lookup_bind (x y : Atom) (value : Expr) (env : Env) :
    (env.bind y value).lookup x = if y = x then .ok value else env.lookup x := by
  simp [bind, lookup]

/-- The environment with one more binding in front; the name has to be an atom. -/
def bindExpr (name value : Expr) (env : Env) : Except Error Env :=
  match name with
  | .atom x => .ok (env.bind x value)
  | name => .error (.cannotBind name)

/-- The bindings of one list in front of another environment. -/
def append (front back : Env) : Except Error Env := do
  let bindings ← front.toList (text "binding list")
  return Expr.ofList bindings back

/-- The bindings of parameters to values, one each. -/
def bindEach : List Expr → List Expr → Except Error (List Expr)
  | .atom x :: names, value :: values => do
    let rest ← bindEach names values
    return .pair (.atom x) value :: rest
  | name :: _, _ :: _ => .error (.parameterNotAtom name)
  | _, _ => .ok []

/-- The list of bindings of a parameter list to an argument list of the same length. -/
def ofParameters (names values : Expr) : Except Error Env := do
  let names ← names.toList (text "parameter list")
  let values ← values.toList (text "argument list")
  if names.length ≠ values.length then
    throw (.arity names.length values.length)
  let bindings ← bindEach names values
  return Expr.ofList bindings

/-- Bindings of texts in the given order, in front of `outer`; each text has to be a name. -/
def ofTexts (bindings : List (Text × Expr)) (outer : Env) : Except Error Env := do
  let pairs ← bindings.mapM fun (name, value) =>
    match Atom.ofText? name with
    | some x => Except.ok (Expr.pair (.atom x) value)
    | none => .error (.illegalName name)
  return Expr.ofList pairs outer

end Env

end DottedLisp
