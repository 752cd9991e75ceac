import DottedLisp.Console
import DottedLisp.Proofs.Draft.Dangling
import DottedLisp.Proofs.Text.Lines

/-!
# Balanced texts

The console hands a text on once it does not open more parentheses than it closes. A pending text
carries its balance with it, and that is the balance of all its lines (`Pending.Counted`), so every
text that is handed on is balanced as a whole.

A text that breaks off behind a dot has an open group, hence a positive balance. So the console
never hands one on (`Console.looseToDotted_ne_danglingDot`).

Lines can be grouped in two goes: what is pending after the first ones (`Pending.after`) is all that
the later ones have to know. Where nothing is pending the texts of an input are those of its two
parts (`Console.chunks_append`).
-/

namespace DottedLisp

namespace Console

theorem balance_append (s t : Text) : balance (s ++ t) = balance s + balance t := by
  simp only [balance, List.count_append]
  omega

/-- The balance of a text is that of its tokens. -/
theorem balance_eq_count_scan (s : Text) :
    balance s = ((Token.scan s).count .lparen : Int) - (Token.scan s).count .rparen := by
  rw [balance, Token.count_scan (c := CodePoint.ofChar '(') rfl,
    Token.count_scan (c := CodePoint.ofChar ')') rfl]

/-- The balance that is carried along is the balance of the lines. -/
def Pending.Counted (p : Pending) : Prop := p.balance = Console.balance p.held

theorem Pending.counted_none : Pending.none.Counted := rfl

theorem Pending.Counted.add {p : Pending} (h : p.Counted) (line : Text) : (p.add line).Counted := by
  unfold Counted at h ⊢
  rw [Pending.add, h, balance_append]

/-- **What becomes of a line:** the lines are handed on, or they stay pending. -/
theorem Pending.take_cases (p : Pending) (line : Text) :
    ((p.add line).balance ≤ 0 ∧ p.take line = (some (p.held ++ line), .none)) ∨
    (0 < (p.add line).balance ∧ p.take line = (.none, p.add line)) := by
  unfold take
  by_cases h : (p.add line).balance ≤ 0
  · exact .inl ⟨h, if_pos h⟩
  · exact .inr ⟨by omega, if_neg h⟩

theorem chunksFrom_cons (p : Pending) (line : Text) (lines : List Text) :
    chunksFrom p (line :: lines) =
      (p.take line).1.toList ++ chunksFrom (p.take line).2 lines := rfl

theorem Pending.Counted.take {p : Pending} (h : p.Counted) (line : Text) :
    (p.take line).2.Counted := by
  rcases p.take_cases line with ⟨-, htake⟩ | ⟨-, htake⟩
  · rw [htake]
    exact counted_none
  · rw [htake]
    exact h.add line

theorem balance_of_mem_chunksFrom {p : Pending} {lines : List Text} (hp : p.Counted) {chunk : Text}
    (h : chunk ∈ chunksFrom p lines) : balance chunk ≤ 0 := by
  induction lines generalizing p with
  | nil => cases h
  | cons line lines ih =>
    rw [chunksFrom_cons] at h
    rcases List.mem_append.mp h with h | h
    · rcases p.take_cases line with ⟨hbalance, htake⟩ | ⟨-, htake⟩
      · rw [htake] at h
        obtain rfl : chunk = p.held ++ line := List.mem_singleton.mp h
        exact (hp.add line).symm.trans_le hbalance
      · rw [htake] at h
        cases h
    · exact ih (hp.take line) h

/-- **No text that is handed on opens more parentheses than it closes.** -/
theorem balance_of_mem_chunks {input chunk : Text} (h : chunk ∈ chunks input) : balance chunk ≤ 0 :=
  balance_of_mem_chunksFrom Pending.counted_none h

/-! ## Lines in two goes -/

/-- What is pending after more lines. -/
def Pending.after (p : Pending) : List Text → Pending
  | [] => p
  | line :: lines => (p.take line).2.after lines

theorem chunksFrom_append (p : Pending) (lines more : List Text) :
    chunksFrom p (lines ++ more) = chunksFrom p lines ++ chunksFrom (p.after lines) more := by
  induction lines generalizing p with
  | nil => rfl
  | cons line lines ih =>
    rw [List.cons_append, chunksFrom_cons, chunksFrom_cons, Pending.after, ih, List.append_assoc]

/-- **The texts and what is pending behind them make up the lines.** -/
theorem flatten_chunksFrom (p : Pending) (lines : List Text) :
    (chunksFrom p lines).flatten ++ (p.after lines).held = p.held ++ lines.flatten := by
  induction lines generalizing p with
  | nil => simp [chunksFrom, Pending.after]
  | cons line lines ih =>
    rw [chunksFrom_cons, Pending.after, List.flatten_append, List.append_assoc, ih]
    rcases p.take_cases line with ⟨-, htake⟩ | ⟨-, htake⟩
    · rw [htake]
      simp [Pending.none]
    · rw [htake]
      simp [Pending.add]

theorem Pending.Counted.after {p : Pending} (h : p.Counted) (lines : List Text) :
    (p.after lines).Counted := by
  induction lines generalizing p with
  | nil => exact h
  | cons line lines ih => exact ih (h.take line)

/-- Where no line is left over nothing is pending. -/
theorem after_eq_none {input : Text} (h : (chunks input).flatten = input) :
    Pending.none.after input.lines = .none := by
  have hlines : input.lines.flatten = input := flatten_cutAfter _ input
  have hflatten : (chunks input).flatten ++ (Pending.none.after input.lines).held = input :=
    (flatten_chunksFrom .none input.lines).trans hlines
  have hcounted := Pending.counted_none.after input.lines
  rw [h] at hflatten
  generalize Pending.none.after input.lines = p at hflatten hcounted ⊢
  -- without text there is no balance either
  obtain ⟨held, balance⟩ := p
  obtain rfl : held = [] := List.append_right_eq_self.mp hflatten
  obtain rfl : balance = 0 := hcounted
  rfl

/-- **Lines behind a complete input are grouped as if they came first.** -/
theorem chunks_append {s : Text} (hlines : s = [] ∨ text "\n" <:+ s) (hall : (chunks s).flatten = s)
    (t : Text) : chunks (s ++ t) = chunks s ++ chunks t := by
  rw [chunks, Text.lines_append hlines, chunksFrom_append, after_eq_none hall]
  rfl

/-- **No text that is handed on breaks off behind a dot.** -/
theorem looseToDotted_ne_danglingDot {input chunk : Text} (h : chunk ∈ chunks input) (limit : Nat) :
    looseToDotted limit chunk ≠ .error .danglingDot := by
  intro hdangling
  have hdeep : looseToDotted limit chunk ≠ .error .tooDeep := by
    rw [hdangling]
    decide
  have hbreaks := (looseToDotted_eq_danglingDot_iff hdeep).mp hdangling
  have hcount := hbreaks.count_rparen_lt
  have hbalance := balance_of_mem_chunks h
  rw [balance_eq_count_scan] at hbalance
  omega

end Console

end DottedLisp
