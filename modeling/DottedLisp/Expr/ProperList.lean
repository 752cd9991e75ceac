import DottedLisp.Error

/-!
# Proper lists

Argument lists, parameter lists and clause lists have to end in `nil`. What ends in another atom is
refused before any of its items is looked at.
-/

namespace DottedLisp

namespace Expr

/-- The items of a list; an error names the list as `what`. -/
def toList (what : Text) (e : Expr) : Except Error (List Expr) :=
  if e.terminator = Atom.nil then .ok e.elements else .error (.improperList what e.terminator)

/-- **A spine that ends in `nil` has its items.** -/
@[simp] theorem toList_ofList (what : Text) (items : List Expr) :
    (ofList items).toList what = .ok items := by
  simp [toList, nil, elements, terminator]

/-- Only the spine of its items ending in `nil` is a list. -/
theorem eq_ofList_of_toList {what : Text} {e : Expr} {items : List Expr}
    (h : e.toList what = .ok items) : e = ofList items := by
  unfold toList at h
  split at h
  · next hnil =>
    cases h
    have he := ofList_elements e
    rw [hnil] at he
    exact he.symm
  · cases h

end Expr

end DottedLisp
