import DottedLisp.Expr.Basic

/-!
# Forms

The names that mean something to evaluation: seven primitive operations and two heads of procedure
forms. They are known by name alone. No binding can shadow a primitive, and a label form may not
take the name of one.
-/

namespace DottedLisp

/-- A primitive operation. -/
inductive Primitive where
  /-- Gives its operand unevaluated. -/
  | quote
  /-- Tells atoms from pairs. -/
  | atom
  /-- Compares two atoms. -/
  | eq
  /-- The first component of a pair. -/
  | car
  /-- The second component of a pair. -/
  | cdr
  /-- Builds a pair. -/
  | cons
  /-- Chooses the first clause that holds. -/
  | cond
deriving DecidableEq

namespace Primitive

/-- The name of a primitive. -/
def name : Primitive → Atom
  | .quote => ⟨text "quote", by decide⟩
  | .atom => ⟨text "atom", by decide⟩
  | .eq => ⟨text "eq", by decide⟩
  | .car => ⟨text "car", by decide⟩
  | .cdr => ⟨text "cdr", by decide⟩
  | .cons => ⟨text "cons", by decide⟩
  | .cond => ⟨text "cond", by decide⟩

/-- All primitives. -/
def all : List Primitive := [.quote, .atom, .eq, .car, .cdr, .cons, .cond]

/-- The primitive of a name. -/
def ofAtom? (a : Atom) : Option Primitive := all.find? fun p => p.name = a

/-- **A primitive is found under its name.** -/
@[simp] theorem ofAtom?_name (p : Primitive) : ofAtom? p.name = some p := by
  cases p <;> rfl

/-- Nothing else is found under a name. -/
theorem name_of_ofAtom? {a : Atom} {p : Primitive} (h : ofAtom? a = some p) : p.name = a := by
  have h' := List.find?_some h
  exact of_decide_eq_true h'

end Primitive

/-- The forms that procedures are written as. -/
inductive Procedure where
  /-- `(label . (name . procedure))` -/
  | label
  /-- `(lambda . (parameters . body))` -/
  | lambda
deriving DecidableEq

namespace Procedure

/-- The head of a procedure form. -/
def head : Procedure → Atom
  | .label => ⟨text "label", by decide⟩
  | .lambda => ⟨text "lambda", by decide⟩

/-- The procedure form of a head. -/
def ofAtom? (a : Atom) : Option Procedure := [label, lambda].find? fun form => form.head = a

/-- **A procedure form is found under its head.** -/
@[simp] theorem ofAtom?_head (form : Procedure) : ofAtom? form.head = some form := by
  cases form <;> rfl

end Procedure

/-- Is the atom the name of a primitive or the head of a procedure form? -/
def Atom.isForm (a : Atom) : Bool := (Primitive.ofAtom? a).isSome || (Procedure.ofAtom? a).isSome

end DottedLisp
