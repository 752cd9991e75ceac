import DottedLisp.Expr.Atom

/-!
# Expressions

An expression is an atom or a pair. A list is a chain of pairs along the second components, its
*spine*, that ends in `nil`; a chain that ends in another atom is allowed and is no list.

Main definitions: `Expr.ofList` builds a spine; `Expr.elements` and `Expr.terminator` take it apart.
-/

namespace DottedLisp

/-- An expression: an atom, or a pair of expressions. -/
inductive Expr where
  /-- An atom. -/
  | atom (a : Atom)
  /-- A pair of expressions. -/
  | pair (car cdr : Expr)
deriving DecidableEq

namespace Expr

/-- The atom `nil` as an expression. -/
def nil : Expr := .atom Atom.nil

/-- The atom `t` as an expression. -/
def t : Expr := .atom Atom.t

instance : Inhabited Expr := ⟨nil⟩

/-- The expression that stands for a truth value. -/
def truth (b : Bool) : Expr := if b then t else nil

/-- Is the expression an atom? -/
def isAtom : Expr → Bool
  | .atom _ => true
  | .pair _ _ => false

/-! ## Lists -/

/-- The spine of the given items that ends in `tail`. -/
def ofList (items : List Expr) (tail : Expr := nil) : Expr := items.foldr .pair tail

/-- The items along the spine. -/
def elements : Expr → List Expr
  | .atom _ => []
  | .pair x y => x :: y.elements

/-- The atom that ends the spine. -/
def terminator : Expr → Atom
  | .atom a => a
  | .pair _ y => y.terminator

/-- **An expression is its items and what ends them.** -/
theorem ofList_elements (e : Expr) : ofList e.elements (.atom e.terminator) = e := by
  induction e with
  | atom a => rfl
  | pair x y _ ih =>
    simp only [elements, terminator, ofList, List.foldr_cons] at ih ⊢
    rw [ih]

@[simp] theorem elements_ofList (items : List Expr) (e : Expr) :
    (ofList items e).elements = items ++ e.elements := by
  induction items with
  | nil => rfl
  | cons x items ih => simpa [ofList, elements] using ih

@[simp] theorem terminator_ofList (items : List Expr) (e : Expr) :
    (ofList items e).terminator = e.terminator := by
  induction items with
  | nil => rfl
  | cons x items ih => simpa [ofList, terminator] using ih

/-! ## Nesting -/

/-- How deep pairs nest in either component. -/
def height : Expr → Nat
  | .atom _ => 0
  | .pair x y => max x.height y.height + 1

/-- Do first components nest no deeper than the limit? The answer is known at the first place that
is too deep, so what comes after it is not visited. -/
def carNestsWithin : Expr → (limit : Nat) → Bool
  | .atom _, _ => true
  | .pair _ _, 0 => false
  | .pair x y, limit + 1 => x.carNestsWithin limit && y.carNestsWithin (limit + 1)

/-- Do components nest no deeper than the limit? As in `carNestsWithin`, the first place that is too
deep decides. -/
def nestsWithin : Expr → (limit : Nat) → Bool
  | .atom _, _ => true
  | .pair _ _, 0 => false
  | .pair x y, limit + 1 => x.nestsWithin limit && y.nestsWithin limit

end Expr

end DottedLisp
