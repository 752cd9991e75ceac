import DottedLisp.Text.Digit
import DottedLisp.Text.Lines

/-!
# Integers in text

An integer is written with an optional sign and decimal digits of any script. Between two digits
there may be one underscore, and around the number there may be blanks.
-/

namespace DottedLisp

namespace Text

/-- Add the digits of a text to a number: the number, and how many digits it has. `needed` says that
a digit has to come next. -/
def readDigits : (needed : Bool) → (value count : Nat) → Text → Option (Nat × Nat)
  | true, _, _, [] => none
  | false, value, count, [] => some (value, count)
  | needed, value, count, c :: rest =>
    if c = '_' then
      if needed then none else readDigits true value count rest
    else
      match c.digit? with
      | some d => readDigits false (10 * value + d) (count + 1) rest
      | none => none

/-- The integer that a text denotes, if it has at most `most` digits. -/
def toInt? (most : Nat) (s : Text) : Option Int :=
  let s := s.strip
  let sign := (s.take 1).filter fun (c : CodePoint) => c = '+' ∨ c = '-'
  match readDigits true 0 0 (s.drop sign.length) with
  | none => none
  | some (value, count) =>
    if most < count then none
    else some (if sign = [CodePoint.ofChar '-'] then -(value : Int) else value)

end Text

end DottedLisp
