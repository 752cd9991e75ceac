import DottedLisp.Draft.Groups
import DottedLisp.Eval
import DottedLisp.Expr.Reader

/-!
# Evaluating texts

A toplevel reads the expressions of a text and evaluates each in the same base environment. Reading
and evaluating take turns: an error of reading counts only after everything before it is evaluated,
and an error of evaluating hides whatever is wrong further on.
-/

namespace DottedLisp

/-- The nesting limit that is used where none is asked for. -/
def defaultLimit : Nat := 1000

/-- How deep things may nest. Each kind has a limit of its own. -/
structure Limits where
  /-- Groups of a loose text. -/
  groups : Nat := defaultLimit
  /-- Evaluations inside each other. -/
  evaluations : Nat := defaultLimit
  /-- Values that are printed. -/
  values : Nat := defaultLimit
  /-- Arrays and objects of a request. -/
  json : Nat := defaultLimit

/-- How texts are read and evaluated. -/
structure Toplevel where
  /-- The environment of every evaluation. -/
  env : Env
  /-- Are texts in the loose notation? -/
  loose : Bool
  limits : Limits := {}

/-- The values of a text: one value is given as it is. -/
inductive Answer where
  /-- One value; also `nil` for a text without expressions. -/
  | one (value : Expr)
  /-- The values of several expressions. -/
  | many (values : List Expr)
deriving DecidableEq

namespace Answer

/-- The answer for a list of values. -/
def ofList : List Expr → Answer
  | [] => .one Expr.nil
  | [value] => .one value
  | values => .many values

/-- The values of an answer. -/
def values : Answer → List Expr
  | .one value => [value]
  | .many values => values

end Answer

namespace Toplevel

/-- A text in the dotted notation. -/
def toDotted (top : Toplevel) (code : Text) : Except Failure Text :=
  if top.loose then looseToDotted top.limits.groups code else .ok code

/-- Evaluate the expressions that were read, then give the error that ended the reading. -/
def evalReading (top : Toplevel) (reading : Parser.Reading) : Run Failure (List Expr) := do
  let values ← reading.values.mapM fun e => evaluate top.limits.evaluations e top.env
  match reading.fault with
  | some e => Run.refuse e
  | none => return values

/-- Evaluate a text. -/
def eval (top : Toplevel) (code : Text) : Run Failure Answer := do
  let dotted ← Run.ofExcept (top.toDotted code)
  Run.note (.evaluating dotted)
  let values ← top.evalReading (Expr.readAll dotted)
  return Answer.ofList values

end Toplevel

end DottedLisp
