import DottedLisp.Proofs.Expr.Reading
import DottedLisp.Proofs.Token.Lexing

/-!
# Reading up to an illegal character

The reader takes one token at a time, so it finds out about an illegal character only when it gets
there. What it has refused before that stays refused, for the same cause. What it would have taken,
or would have been waiting for at the end of the text, becomes the error of the illegal character
(`Expr.read_append_cases`).

Whether a text was refused at its end can be told from the words of the error (`Error.AtEnd`): an
error about a token never has these words (`Error.AboutToken.not_atEnd`).
-/

namespace DottedLisp

theorem Text.getLast?_quoted (s : Text) : s.quoted.getLast? = some s.quoteFor := by
  rw [quoted, ← List.cons_append, List.getLast?_append]
  rfl

namespace Error

/-- The words of the error say that the text ended too early. -/
def AtEnd (e : Error) : Prop :=
  e.message = text "unexpected end of input" ∨
    ∃ what, e.message = text "expected " ++ what ++ text ", got end of input"

/-- The errors of a reader that met a token it cannot use. -/
inductive AboutToken : Error → Prop where
  | unexpected (t : Token Atom) : AboutToken (.unexpected t)
  | expected (what : Text) (t : Token Atom) : AboutToken (.expected what (some t))
  | trailing (t : Token Atom) : AboutToken (.trailing t)

theorem AtEnd.getLast?_message {e : Error} (h : e.AtEnd) :
    e.message.getLast? = some (CodePoint.ofChar 't') := by
  rcases h with h | ⟨what, h⟩
  · rw [h]
    decide
  · rw [h, List.getLast?_append]
    rfl

/-- **No error about a token has the words for the end of a text.** -/
theorem AboutToken.not_atEnd {e : Error} (h : e.AboutToken) : ¬e.AtEnd := by
  intro hend
  have hlast := hend.getLast?_message
  cases h with
  | unexpected t =>
    rcases hend with hwords | ⟨what, hwords⟩
    · -- the words behind `unexpected` would be the text of a token, which has no blanks
      have htext : t.text = text "end of input" := List.append_cancel_left hwords
      have hblank : CodePoint.ofChar ' ' ∈ t.text := htext ▸ by decide
      exact absurd (Token.isBlank_of_mem_text hblank) (by decide +kernel)
    · cases hwords
  | expected what t =>
    rw [message, List.getLast?_append, describe, Text.getLast?_quoted, Option.some_or] at hlast
    -- quoted text ends with its quote
    have hquote : t.text.quoteFor ≠ CodePoint.ofChar 't' := by
      unfold Text.quoteFor
      split <;> decide
    exact hquote (Option.some.inj hlast)
  | trailing t =>
    have hexpression : (text " after expression").getLast? = some (CodePoint.ofChar 'n') := by
      decide
    rw [message, List.getLast?_append, hexpression, Option.some_or] at hlast
    exact absurd hlast (by decide)

theorem AboutToken.kind {e : Error} (h : e.AboutToken) : e.kind = .grammar := by
  cases h <;> rfl

end Error

namespace Parser

theorem State.atEnd_endError (s : State) : s.endError.AtEnd := by
  cases s with
  | start stack => exact .inl rfl
  | dot car stack => exact .inr ⟨text "'.'", rfl⟩
  | close pair stack => exact .inr ⟨text "')'", rfl⟩

theorem aboutToken_of_step {s : State} {t : Token Atom} {e : Error}
    (h : step s t = .stop (.error e)) :
    e.AboutToken := by
  rcases step_error_cases h with rfl | rfl | rfl
  · exact .unexpected t
  · exact .expected _ t
  · exact .expected _ t

/-- **A parser that stops with an error does so because of a token.** -/
theorem aboutToken_of_parse {s : State} {ts rest : List (Token Atom)} {e : Error}
    (h : parse s ts = .stopped (.error e) rest) : e.AboutToken := by
  induction ts generalizing s with
  | nil => cases h
  | cons t ts ih =>
    rw [parse_cons] at h
    cases hs : step s t with
    | next s' =>
      rw [hs] at h
      exact ih h
    | stop r =>
      rw [hs] at h
      cases h
      exact aboutToken_of_step hs

end Parser

namespace Expr

section Behind

variable {u : Text} (hu : ∀ d ∈ u, d.isLegal = true) {c : CodePoint} (hc : c.isLegal = false)
  (w : Text)

include hu hc

theorem lex_append_illegal : lex (u ++ c :: w) = ⟨(lex u).tokens, some ⟨c, u.length⟩⟩ :=
  lex_append_of_legal hu (by simpa using hc)

/-- **How a legal text is read, and how it is read with an illegal character behind it.** The parser
sees the same tokens both times. Where it goes through all of them, the illegal character
decides. -/
theorem read_append_cases :
    ((∃ e, read u = .ok e) ∧ read (u ++ c :: w) = .error (.illegalCharacter ⟨c, u.length⟩)) ∨
    (∃ state : Parser.State, read u = .error state.endError ∧
      read (u ++ c :: w) = .error (.illegalCharacter ⟨c, u.length⟩)) ∨
    ∃ e, e.AboutToken ∧ read u = .error e ∧ read (u ++ c :: w) = .error e := by
  rw [read_eq u, read_eq (u ++ c :: w), lex_append_illegal hu hc, illegal_lex_eq_none_iff.mpr hu]
  cases hparse : Parser.parse (.start []) (lex u).tokens with
  | ended state => exact .inr (.inl ⟨state, rfl, rfl⟩)
  | stopped r rest =>
    cases r with
    | error e => exact .inr (.inr ⟨e, Parser.aboutToken_of_parse hparse, rfl, rfl⟩)
    | ok e =>
      cases rest with
      | nil => exact .inl ⟨⟨e, rfl⟩, rfl⟩
      | cons t rest => exact .inr (.inr ⟨_, .trailing t, rfl, rfl⟩)

end Behind

/-- **The earliest error wins.** Let a legal text be followed by a foreign character. If the text is
read, or refused for its end, then the foreign character is the error, with its position. If the
text is refused for anything else, that stays the error, and it is one of grammar. What follows the
foreign character does not matter. -/
theorem read_append_foreign {u : Text} (hu : ∀ d ∈ u, ¬d.Foreign) {c : CodePoint} (hc : c.Foreign)
    (w : Text) :
    (((∃ e, read u = .ok e) ∨ ∃ e, read u = .error e ∧ e.AtEnd) →
      read (u ++ c :: w) = .error (.illegalCharacter ⟨c, u.length⟩)) ∧
    (∀ e, read u = .error e → ¬e.AtEnd → read (u ++ c :: w) = .error e) ∧
    (∀ e, read u = .error e → e.kind = .grammar) ∧
    (Error.illegalCharacter ⟨c, u.length⟩).kind = .lexical ∧
    (Error.illegalCharacter ⟨c, u.length⟩).message =
      text "illegal character " ++ Text.quoted [c] ++ text " at " ++ Text.ofNat u.length ∧
    ∀ w', read (u ++ c :: w') = read (u ++ c :: w) := by
  have hlegal : ∀ d ∈ u, d.isLegal = true := fun d hd => CodePoint.isLegal_iff.mpr (hu d hd)
  have hillegal : c.isLegal = false := CodePoint.isLegal_eq_false_iff.mpr hc
  have hrest : ∀ w', read (u ++ c :: w') = read (u ++ c :: w) := by
    intro w'
    rw [read_eq, read_eq, lex_append_illegal hlegal hillegal, lex_append_illegal hlegal hillegal]
  rcases read_append_cases hlegal hillegal w with
    ⟨⟨e, he⟩, hw⟩ | ⟨state, he, hw⟩ | ⟨e, htoken, he, hw⟩
  · exact ⟨fun _ => hw, by simp [he], by simp [he], rfl, rfl, hrest⟩
  · refine ⟨fun _ => hw, fun e' he' hend => ?_, fun e' he' => ?_, rfl, rfl, hrest⟩
    · obtain rfl := Except.error.inj (he.symm.trans he')
      exact absurd state.atEnd_endError hend
    · obtain rfl := Except.error.inj (he.symm.trans he')
      exact state.kind_endError
  · -- refused for a token, so neither read nor refused for the end
    exact ⟨by simp [he, htoken.not_atEnd], by simp [he, hw], by simp [he, htoken.kind], rfl,
      rfl, hrest⟩

/-- Three legal texts before the same character: one is read, one breaks off, and one has a dot too
many. -/
theorem read_append_foreign_three :
    let c := CodePoint.ofChar '#'
    c.Foreign ∧ (∀ u ∈ [text "(t . nil)", text "(t . ", text "(t . . "], ∀ d ∈ u, ¬d.Foreign) ∧
    read (text "(t . nil)" ++ c :: text ")(") = .error (.illegalCharacter ⟨c, 9⟩) ∧
    read (text "(t . " ++ c :: text "nil)") = .error (.illegalCharacter ⟨c, 5⟩) ∧
    read (text "(t . . " ++ c :: text "nil)") = .error (.unexpected .dot) := by
  intro c
  have hc : c.Foreign := CodePoint.isLegal_eq_false_iff.mp (by decide +kernel)
  have hlegal : ∀ u ∈ [text "(t . nil)", text "(t . ", text "(t . . "], ∀ d ∈ u,
      d.isLegal = true := by
    decide +kernel
  have hu : ∀ u ∈ [text "(t . nil)", text "(t . ", text "(t . . "], ∀ d ∈ u, ¬d.Foreign :=
    fun u hmem d hd => CodePoint.isLegal_iff.mp (hlegal u hmem d hd)
  refine ⟨hc, hu, ?_, ?_, ?_⟩
  · exact (read_append_foreign (hu _ (by simp)) hc _).1
      (.inl ⟨.pair Expr.t Expr.nil, by decide +kernel⟩)
  · exact (read_append_foreign (hu _ (by simp)) hc _).1
      (.inr ⟨.unexpectedEnd, by decide +kernel, .inl rfl⟩)
  · exact (read_append_foreign (hu _ (by simp)) hc _).2.1 _ (by decide +kernel)
      (Error.AboutToken.unexpected .dot).not_atEnd

end Expr

end DottedLisp
