import DottedLisp.Text.Letter

/-!
# Atoms

An atom is known by its name, a run of letters. The name carries its own proof, so a text that is no
name never becomes an atom, and printing an atom never has to escape anything.
-/

namespace DottedLisp

/-- A text that can name an atom: at least one character, and letters only. -/
abbrev IsName (s : Text) : Prop := s ≠ [] ∧ ∀ c ∈ s, c.isLetter = true

/-- An atom, known by its name. -/
structure Atom where
  /-- The letters of the name. -/
  name : Text
  /-- The name is a run of letters. -/
  isName : IsName name
deriving DecidableEq

namespace Atom

@[ext] theorem ext {a b : Atom} (h : a.name = b.name) : a = b := by
  cases a; cases b; cases h; rfl

/-- The atom of a text, if the text is a name. -/
def ofText? (s : Text) : Option Atom := if h : IsName s then some ⟨s, h⟩ else none

/-! ## The truth atoms -/

/-- The atom for truth. -/
def t : Atom := ⟨text "t", by decide⟩

/-- The atom for falsehood and for the end of a list. -/
def nil : Atom := ⟨text "nil", by decide⟩
end Atom

end DottedLisp
