import DottedLisp.Expr.Basic

/-!
# Drafts

A draft is the structure of a group in the loose notation before its words are known to be names. It
has the shape of an expression, with any text in the place of an atom, and with one more case: a
group of a single item, which is kept as it is because it denotes nothing.

`Draft.dotted` writes a draft in the dotted notation.
-/

namespace DottedLisp

/-- The structure of a group. -/
inductive Draft where
  /-- A word, whatever it holds. -/
  | word (w : Text)
  /-- A group of one item. -/
  | single (item : Draft)
  /-- A pair. -/
  | pair (car cdr : Draft)
deriving DecidableEq

namespace Draft

/-- The empty group stands for `nil`. -/
def empty : Draft := .word Atom.nil.name

/-- Pairs from the right: `items`, last item first, in front of `tail`. -/
def nest (items : List Draft) (tail : Draft) : Draft :=
  items.foldl (fun inner item => .pair item inner) tail

/-- The draft of a group without a dot, by its items, last item first. -/
def ofItems : List Draft → Draft
  | [] => empty
  | [item] => .single item
  | last :: items => nest items last

/-- The dotted text of a draft, put in front of `rest`. -/
def dottedOnto : Draft → Text → Text
  | .word w, rest => w ++ rest
  | .single item, rest => '(' :: item.dottedOnto (')' :: rest)
  | .pair x y, rest => '(' :: x.dottedOnto ('.' :: y.dottedOnto (')' :: rest))

/-- The dotted text of a draft. -/
def dotted (d : Draft) : Text := d.dottedOnto []

end Draft

end DottedLisp
