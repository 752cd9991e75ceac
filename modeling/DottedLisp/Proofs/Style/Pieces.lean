import DottedLisp.Style
import Mathlib.Data.List.Basic

/-!
# What the pieces of a printed expression show

A console prints an expression piece by piece. Whatever the colours, the pieces show the text of the
expression in the notation that the style asks for (`Style.flatMap_shown_pieces`). A piece is one
mark of the notation or an atom (`Style.mem_pieces`), so without colours nothing but that text is
written (`Style.print_plain`).
-/

namespace DottedLisp

/-- An expression in the list notation, or else in the dotted one. -/
def Expr.printed (listed : Bool) (e : Expr) : Text := if listed then e.listed else e.dotted

/-- The text of a piece without its colour. -/
def Piece.shown : Piece → Text
  | .plain s => s
  | .colored _ a => a.name

namespace Style

/-- A notation without colours. -/
def plain (listed : Bool) : Style := ⟨listed, false, false, false⟩

theorem piece_plain (listed : Bool) (a : Atom) : (plain listed).piece a = .plain a.name := by
  simp [piece, plain]

variable (style : Style)

theorem shown_piece (a : Atom) : (style.piece a).shown = a.name := by
  unfold piece
  split
  · rfl
  · split
    · rfl
    · split <;> rfl

/-! ## The text -/

theorem flatMap_shown_dottedPieces (e : Expr) :
    (style.dottedPieces e).flatMap Piece.shown = e.dotted := by
  induction e with
  | atom a => simp [dottedPieces, shown_piece]
  | pair x y ihx ihy => simp [dottedPieces, Piece.shown, ihx, ihy]

/-- The list notation goes down a spine with a second function, so both are done in one
induction. -/
theorem flatMap_shown_listed_and_tail (e : Expr) :
    (∀ rest, (style.listedPieces e).flatMap Piece.shown ++ rest = e.listedOnto rest) ∧
      ∀ rest, (style.listedTail e).flatMap Piece.shown ++ rest = e.listedTailOnto rest := by
  induction e with
  | atom a =>
    have hname : ∀ rest, [style.piece a].flatMap Piece.shown ++ rest = a.name ++ rest := by
      intro rest
      simp [shown_piece]
    exact ⟨hname, hname⟩
  | pair x y ihx ihy =>
    constructor
    · intro rest
      rw [Expr.listedOnto, ← ihx.1, ← ihy.2]
      simp [listedPieces, Piece.shown]
    · intro rest
      rw [Expr.listedTailOnto, ← ihx.1, ← ihy.2]
      simp [listedTail, Piece.shown]

/-- **The pieces of an expression show its text, whatever their colours.** -/
theorem flatMap_shown_pieces (e : Expr) :
    (style.pieces e).flatMap Piece.shown = e.printed style.listed := by
  unfold pieces Expr.printed
  split
  · have hlisted := (style.flatMap_shown_listed_and_tail e).1 []
    rwa [List.append_nil] at hlisted
  · exact style.flatMap_shown_dottedPieces e

/-! ## The pieces -/

/-- A piece is a mark of the notation or an atom. -/
def IsPart (p : Piece) : Prop := (∃ c ∈ text "(. )", p = .plain [c]) ∨ ∃ a, p = style.piece a

theorem isPart_mark {c : CodePoint} (h : c ∈ text "(. )") : style.IsPart (.plain [c]) :=
  .inl ⟨c, h, rfl⟩

theorem isPart_of_mem_dottedPieces {e : Expr} : ∀ p ∈ style.dottedPieces e, style.IsPart p := by
  induction e with
  | atom a =>
    intro p hp
    exact .inr ⟨a, List.mem_singleton.mp hp⟩
  | pair x y ihx ihy =>
    intro p hp
    simp only [dottedPieces, List.mem_cons, List.mem_append, List.not_mem_nil, or_false] at hp
    rcases hp with rfl | hp | rfl | hp | rfl
    · exact style.isPart_mark (by decide)
    · exact ihx p hp
    · exact style.isPart_mark (by decide)
    · exact ihy p hp
    · exact style.isPart_mark (by decide)

theorem isPart_of_mem_listed_and_tail {e : Expr} :
    (∀ p ∈ style.listedPieces e, style.IsPart p) ∧ ∀ p ∈ style.listedTail e, style.IsPart p := by
  induction e with
  | atom a =>
    have hatom : ∀ p ∈ [style.piece a], style.IsPart p := by
      intro p hp
      exact .inr ⟨a, List.mem_singleton.mp hp⟩
    exact ⟨hatom, hatom⟩
  | pair x y ihx ihy =>
    constructor
    · intro p hp
      simp only [listedPieces, List.mem_cons, List.mem_append, List.not_mem_nil, or_false] at hp
      rcases hp with rfl | hp | rfl | hp | rfl
      · exact style.isPart_mark (by decide)
      · exact ihx.1 p hp
      · exact style.isPart_mark (by decide)
      · exact ihy.2 p hp
      · exact style.isPart_mark (by decide)
    · intro p hp
      simp only [listedTail, List.mem_cons, List.mem_append] at hp
      rcases hp with hp | rfl | hp
      · exact ihx.1 p hp
      · exact style.isPart_mark (by decide)
      · exact ihy.2 p hp

theorem mem_pieces {e : Expr} {p : Piece} (h : p ∈ style.pieces e) : style.IsPart p := by
  unfold pieces at h
  split at h
  · exact style.isPart_of_mem_listed_and_tail.1 p h
  · exact style.isPart_of_mem_dottedPieces p h

theorem print_eq_ok {limit : Nat} {e : Expr} (h : style.print limit e ≠ .error .tooDeep) :
    style.print limit e = .ok ((style.pieces e).flatMap Piece.written) := by
  unfold print at h ⊢
  split at h
  · next hnests => rw [if_pos hnests]
  · exact absurd rfl h

/-! ## Without colours -/

theorem flatMap_written_pieces_plain (listed : Bool) (e : Expr) :
    ((plain listed).pieces e).flatMap Piece.written = e.printed listed := by
  have hwritten : ∀ p ∈ (plain listed).pieces e, p.written = p.shown := by
    intro p hp
    rcases (plain listed).mem_pieces hp with ⟨c, -, rfl⟩ | ⟨a, rfl⟩
    · rfl
    · rw [piece_plain]
      rfl
  rw [List.flatMap_congr hwritten]
  exact (plain listed).flatMap_shown_pieces e

/-- **Without colours an expression is printed as its text.** -/
theorem print_plain {listed : Bool} {limit : Nat} {e : Expr}
    (h : (plain listed).print limit e ≠ .error .tooDeep) :
    (plain listed).print limit e = .ok (e.printed listed) := by
  rw [(plain listed).print_eq_ok h, flatMap_written_pieces_plain]

end Style

end DottedLisp
