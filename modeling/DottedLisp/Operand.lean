import DottedLisp.Expr.Construction
import DottedLisp.Expr.Equal
import DottedLisp.Json.Display

/-!
# Building pairs from outside

Pairs are made of expressions. Where components come from outside they may be plain values instead,
and then no pair is built: the error shows both components as they were given.
-/

namespace DottedLisp

/-- A component for a pair: an expression, or a plain value, which is none. -/
inductive Operand where
  /-- An expression. -/
  | expr (e : Expr)
  /-- A plain value. -/
  | plain (v : Json)

namespace Operand

/-- The operand as an error shows it. -/
def shown (limit : Nat) : Operand → Except Failure Text
  | .expr e => e.constructionWithin limit
  | .plain v => .ok v.shown

/-- Build a pair. -/
def pair (limit : Nat) (car cdr : Operand) : Except Failure Expr :=
  match car, cdr with
  | .expr x, .expr y => .ok (.pair x y)
  | car, cdr => do
    let x ← car.shown limit
    let y ← cdr.shown limit
    throw (.error (.unpairable x y))

/-- Build a spine from the last item on, in front of a tail. -/
def list (limit : Nat) (items : List Operand) (tail : Operand) : Except Failure Operand :=
  items.foldrM (fun item rest => return .expr (← pair limit item rest)) tail

/-- Are two plain values equal? A truth value equals the number one or zero. -/
def samePlain : Json → Json → Bool
  | .null, .null => true
  | .str s, .str t => s = t
  | v, w => match number? v, number? w with
    | some n, some m => n = m
    | _, _ => false
where
  /-- The number of a value. -/
  number? : Json → Option Int
    | .bool b => some (if b then 1 else 0)
    | .int n => some n
    | _ => none

/-- Are two operands equal? An expression equals no plain value. -/
def same (limit : Nat) : Operand → Operand → Except Failure Bool
  | .expr x, .expr y => x.sameWithin y limit
  | .plain v, .plain w => .ok (samePlain v w)
  | _, _ => .ok false

/-- How many different operands two operands are. -/
def countDistinct (limit : Nat) : Operand → Operand → Except Failure Nat
  | .expr x, .expr y => x.countDistinct limit y
  | .plain v, .plain w => .ok (if samePlain v w then 1 else 2)
  | .expr x, .plain _ | .plain _, .expr x =>
    if x.carNestsWithin limit then .ok 2 else .error .tooDeep

end Operand

end DottedLisp
