import DottedLisp.Expr.Construction
import DottedLisp.Proofs.Expr.Loose

/-!
# List notation reads back

The list notation writes the spine of a pair as one group. Its tokens are groups that denote the
expression (`Expr.denotes_listedTokens`), so turning it into dotted text gives the dotted text of
the expression, character for character (`looseToDotted_listed`).

The printer goes down the spine with a second function, so both halves of each statement are proved
together, by induction on the expression.
-/

namespace DottedLisp

open Token

namespace Expr

mutual

/-- The tokens of an expression in the list notation. -/
def listedTokens : Expr → List (Token Atom)
  | .atom a => [.word a]
  | .pair x y => .lparen :: (x.listedTokens ++ (y.listedTailTokens ++ [.rparen]))

/-- The tokens of the items of an expression and of its ending atom. -/
def listedTailTokens : Expr → List (Token Atom)
  | .atom a => [.word a]
  | .pair x y => x.listedTokens ++ y.listedTailTokens

end

theorem listedOnto_append (e : Expr) (s rest : Text) :
    e.listedOnto (s ++ rest) = e.listedOnto s ++ rest ∧
      e.listedTailOnto (s ++ rest) = e.listedTailOnto s ++ rest := by
  induction e generalizing s with
  | atom a => simp [listedOnto, listedTailOnto]
  | pair x y ihx ihy =>
    simp only [listedOnto, listedTailOnto, ← List.cons_append, (ihx _).1, (ihy _).2, and_self]

theorem scan_listed_and_tail (e : Expr) :
    (∀ rest, Apart rest → scan (e.listedOnto rest) = e.listedTokens.map loose ++ scan rest) ∧
    (∀ rest, Apart rest →
      scan (e.listedTailOnto rest) = e.listedTailTokens.map loose ++ scan rest) := by
  induction e with
  | atom a =>
    have hname : ∀ rest, Apart rest → scan (a.name ++ rest) = .word a.name :: scan rest :=
      fun rest hrest => scan_word_append (isWord_name a) hrest
    exact ⟨hname, hname⟩
  | pair x y ihx ihy =>
    constructor
    · intro rest hrest
      rw [listedOnto, scan_lparen, ihx.1 _ (apart_cons CodePoint.isWord_space _), scan_space,
        ihy.2 _ (apart_cons CodePoint.isWord_rparen rest), scan_rparen, listedTokens]
      simp [loose]
    · intro rest hrest
      rw [listedTailOnto, ihx.1 _ (apart_cons CodePoint.isWord_space _), scan_space, ihy.2 _ hrest,
        listedTailTokens]
      simp

/-- **The list text of an expression scans to its tokens.** -/
theorem scan_listed (e : Expr) : scan e.listed = e.listedTokens.map loose := by
  rw [listed, (scan_listed_and_tail e).1 [] apart_nil]
  exact List.append_nil _

theorem denotes_listed_and_tail (e : Expr) :
    Denotes e.listedTokens [e] ∧
      Denotes e.listedTailTokens (e.elements ++ [.atom e.terminator]) := by
  induction e with
  | atom a => exact ⟨.atom a .nil, .atom a .nil⟩
  | pair x y ihx ihy =>
    have hitems : Denotes (x.listedTokens ++ y.listedTailTokens)
        ((x :: y.elements) ++ [.atom y.terminator]) := ihx.1.append ihy.2
    refine ⟨?_, hitems⟩
    have hgroup := Denotes.list hitems (by simp) .nil
    have hspine : ofList (x :: y.elements) (.atom y.terminator) = .pair x y :=
      ofList_elements (.pair x y)
    rw [hspine, List.append_assoc] at hgroup
    exact hgroup

/-- **The tokens of the list notation denote the expression.** -/
theorem denotes_listedTokens (e : Expr) : Denotes e.listedTokens [e] :=
  (denotes_listed_and_tail e).1

theorem listed_of_listedWithin {limit : Nat} {e : Expr} {s : Text}
    (h : e.listedWithin limit = .ok s) : s = e.listed := by
  unfold listedWithin at h
  split at h
  · cases h
    rfl
  · cases h

/-- **The list notation is undone by turning it into dotted text.** As long as neither printing nor
rewriting reaches its limit, the result is the dotted text of the expression, so it reads back. -/
theorem looseToDotted_listed {printLimit limit : Nat} {e : Expr} {s : Text}
    (hprint : e.listedWithin printLimit = .ok s)
    (hlimit : looseToDotted limit s ≠ .error .tooDeep) :
    looseToDotted limit s = .ok e.dotted ∧ read e.dotted = .ok e := by
  have hread : read e.dotted = .ok e := read_eq_ok_iff.mpr e.scan_dotted
  obtain rfl := listed_of_listedWithin hprint
  have hsequence : Draft.Sequence (scan e.listed) ([e].map toDraft) :=
    sequence_toDraft_iff.mpr ⟨_, scan_listed e, denotes_listedTokens e⟩
  refine ⟨?_, hread⟩
  rw [looseToDotted_of_sequence hlimit hsequence, ← dotted_toDraft]
  rfl

theorem looseToDotted_listed_nested :
    listedWithin 2 (.pair (.pair Expr.t Expr.nil) (.pair Expr.t Expr.nil))
      = .ok (text "((t nil) t nil)") ∧
    looseToDotted 2 (text "((t nil) t nil)") ≠ .error .tooDeep ∧
    looseToDotted 2 (text "((t nil) t nil)") = .ok (text "((t.nil).(t.nil))") ∧
    read (text "((t.nil).(t.nil))")
      = .ok (.pair (.pair Expr.t Expr.nil) (.pair Expr.t Expr.nil)) := by
  have hprint : listedWithin 2 (.pair (.pair Expr.t Expr.nil) (.pair Expr.t Expr.nil))
      = .ok (text "((t nil) t nil)") := by
    decide +kernel
  have hlimit : looseToDotted 2 (text "((t nil) t nil)") ≠ .error .tooDeep := by
    decide +kernel
  have hdotted : dotted (.pair (.pair Expr.t Expr.nil) (.pair Expr.t Expr.nil))
      = text "((t.nil).(t.nil))" := by
    decide +kernel
  have hback := looseToDotted_listed hprint hlimit
  rw [hdotted] at hback
  exact ⟨hprint, hlimit, hback⟩

end Expr

end DottedLisp
