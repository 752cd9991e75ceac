import DottedLisp.Text.Blank

/-!
# Lines and surrounding blanks

A line ends right after its line feed; only the last one may lack it. Nothing is lost in the cut:
the lines of a text, one after the other, are the text.
-/

namespace DottedLisp

/-- Put one element in front of a cut list: a closing element is a piece of its own. -/
def consPiece {α : Type} (closes : α → Bool) (a : α) : List (List α) → List (List α)
  | [] => [[a]]
  | piece :: pieces => if closes a then [a] :: piece :: pieces else (a :: piece) :: pieces

/-- Cut a list after every element that closes a piece. No piece is empty. -/
def cutAfter {α : Type} (closes : α → Bool) (as : List α) : List (List α) :=
  as.foldr (consPiece closes) []

theorem flatten_consPiece {α : Type} (closes : α → Bool) (a : α) (pieces : List (List α)) :
    (consPiece closes a pieces).flatten = a :: pieces.flatten := by
  cases pieces with
  | nil => simp [consPiece]
  | cons piece pieces =>
    simp only [consPiece]
    split <;> simp

/-- **The pieces make up the list.** -/
@[simp] theorem flatten_cutAfter {α : Type} (closes : α → Bool) (as : List α) :
    (cutAfter closes as).flatten = as := by
  induction as with
  | nil => rfl
  | cons a as ih =>
    show (consPiece closes a (cutAfter closes as)).flatten = a :: as
    rw [flatten_consPiece, ih]

namespace Text

/-- The lines of a text, each with its line feed. -/
def lines (s : Text) : List Text := cutAfter (fun c => c = CodePoint.ofChar '\n') s

/-- Does the text hold blanks only? -/
def isBlank (s : Text) : Bool := s.all CodePoint.isBlank

/-- The text without the blanks around it. -/
def strip (s : Text) : Text :=
  ((s.dropWhile CodePoint.isBlank).reverse.dropWhile CodePoint.isBlank).reverse

end Text

end DottedLisp
