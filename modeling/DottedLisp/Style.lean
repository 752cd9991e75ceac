import DottedLisp.Expr.Construction

/-!
# Printing in colour

A console prints values in either notation, with the names of atoms in colour. An expression is
first taken apart into pieces, of which those with an atom's name may have a colour; writing the
pieces puts the colour sequences in. So colours never touch anything but names.
-/

namespace DottedLisp

/-- What a name is coloured for. -/
inductive Color where
  | truth
  | form
  | atom
deriving DecidableEq

namespace Color

/-- The sequence that turns the colour on. -/
def start : Color → Text
  | .truth => text "\x1b[92m"
  | .form => text "\x1b[90m"
  | .atom => text "\x1b[94m"

/-- The sequence that turns colours off. -/
def reset : Text := text "\x1b[0m"

end Color

/-- A part of a printed expression. -/
inductive Piece where
  /-- Text without colour. -/
  | plain (s : Text)
  /-- The name of an atom in a colour. -/
  | colored (c : Color) (a : Atom)
deriving DecidableEq

namespace Piece

/-- The piece with its colour sequences. -/
def written : Piece → Text
  | .plain s => s
  | .colored c a => c.start ++ a.name ++ Color.reset

end Piece

/-- How a console prints. -/
structure Style where
  /-- Use the list notation rather than the dotted one? -/
  listed : Bool
  colorAtoms : Bool
  colorTruth : Bool
  colorForms : Bool
deriving DecidableEq

namespace Style

/-- The list notation with all colours. -/
def default : Style := ⟨true, true, true, true⟩

/-- The same notation without colours. -/
def uncolored (style : Style) : Style := ⟨style.listed, false, false, false⟩

/-- The piece of an atom: the first of truth, form and atom that fits and is wanted. -/
def piece (style : Style) (a : Atom) : Piece :=
  if (a = Atom.t ∨ a = Atom.nil) ∧ style.colorTruth then .colored .truth a
  else if a.isForm ∧ style.colorForms then .colored .form a
  else if style.colorAtoms then .colored .atom a
  else .plain a.name

/-- The pieces of an expression in dotted notation. -/
def dottedPieces (style : Style) : Expr → List Piece
  | .atom a => [style.piece a]
  | .pair x y =>
    .plain ['('] ::
      (style.dottedPieces x ++ .plain ['.'] :: (style.dottedPieces y ++ [.plain [')']]))

mutual

/-- The pieces of an expression in list notation. -/
def listedPieces (style : Style) : Expr → List Piece
  | .atom a => [style.piece a]
  | .pair x y =>
    .plain ['('] :: (style.listedPieces x ++ .plain [' '] :: (style.listedTail y ++ [.plain [')']]))

/-- The pieces of the items of an expression and of its ending atom. -/
def listedTail (style : Style) : Expr → List Piece
  | .atom a => [style.piece a]
  | .pair x y => style.listedPieces x ++ .plain [' '] :: style.listedTail y

end

/-- The pieces of an expression. -/
def pieces (style : Style) (e : Expr) : List Piece :=
  if style.listed then style.listedPieces e else style.dottedPieces e

/-- Does printing an expression nest no deeper than the limit? The dotted notation goes into second
components too. -/
def nestsWithin (style : Style) (limit : Nat) (e : Expr) : Bool :=
  if style.listed then e.carNestsWithin limit else e.nestsWithin limit

/-- An expression as the console prints it, where it nests no deeper than the limit. -/
def print (style : Style) (limit : Nat) (e : Expr) : Except Failure Text :=
  if style.nestsWithin limit e then .ok ((style.pieces e).flatMap Piece.written)
  else .error .tooDeep

/-- An atom in its colour, and a pair in plain dotted notation. -/
def paint (style : Style) : Expr → Text
  | .atom a => (style.piece a).written
  | e => e.dotted

end Style

end DottedLisp
