import DottedLisp.Style
import DottedLisp.Text.Lines
import DottedLisp.Toplevel
import DottedLisp.Transcript

/-!
# The console

A console takes lines until their parentheses balance, evaluates what it has and prints each value.
An error is reported and the session goes on. The session ends with its input; lines that never
balance are dropped.

A text counts as balanced as soon as it does not open more parentheses than it closes.
-/

namespace DottedLisp

namespace Console

/-! ## Balanced texts -/

/-- How many more parentheses a text opens than it closes. -/
def balance (s : Text) : Int :=
  (s.count (CodePoint.ofChar '(') : Int) - s.count (CodePoint.ofChar ')')

/-- Lines that do not balance yet. -/
structure Pending where
  /-- The lines. -/
  held : Text
  /-- Their balance. -/
  balance : Int

namespace Pending

/-- No lines. -/
def none : Pending := ⟨[], 0⟩

/-- The lines with one more. -/
def add (p : Pending) (line : Text) : Pending :=
  ⟨p.held ++ line, p.balance + Console.balance line⟩

/-- Take one more line. As soon as the lines balance they are handed on, and nothing is pending. -/
def take (p : Pending) (line : Text) : Option Text × Pending :=
  let p' := p.add line
  if p'.balance ≤ 0 then (some p'.held, .none) else (.none, p')

end Pending

/-- Group lines into balanced texts. -/
def chunksFrom (p : Pending) : List Text → List Text
  | [] => []
  | line :: lines =>
    let (chunk?, p') := p.take line
    chunk?.toList ++ chunksFrom p' lines

/-- The balanced texts of an input. -/
def chunks (input : Text) : List Text := chunksFrom .none input.lines

/-! ## Sessions -/

/-- The first line of a session. -/
def banner : Text := text "Minima REPL v0.3.0. ^D to quit.\n"

/-- What asks for input. -/
def prompt : Text := text "λ> "

/-- The last line of a session. -/
def farewell : Text := text "\nLeaving Minima REPL.\n"

/-- The report of an error. -/
def report (e : Error) : Text :=
  text (if e.isReading then "parse error: " else "error: ") ++ e.message ++ text "\n"

/-- Print values, a line each. A value that nests too deep to be printed ends the session. -/
def printAll (style : Style) (limit : Nat) : List Expr → Transcript Failure
  | [] => .write []
  | value :: values =>
    match style.print limit value with
    | .error e => .stop e
    | .ok s => .write (s ++ text "\n") ++ printAll style limit values

/-- The reply to one balanced text. -/
def respond (top : Toplevel) (style : Style) (chunk : Text) : Transcript Failure :=
  if chunk.isBlank then .write []
  else
    let run := top.eval chunk
    .note run.notes ++
      match run.result with
      | .ok answer => printAll style top.limits.values answer.values
      | .error (.error e) => .write (report e)
      | .error .tooDeep =>
        .note [.abandoned chunk] ++ .write (text "error: recursion too deep\n")
      | .error .danglingDot => .stop .danglingDot

/-- The session after the banner. -/
def converse (top : Toplevel) (style : Style) : List Text → Transcript Failure
  | [] => .write (prompt ++ farewell)
  | chunk :: rest => .write prompt ++ respond top style chunk ++ converse top style rest

/-- A whole session. -/
def session (top : Toplevel) (style : Style) (input : Text) : Transcript Failure :=
  .write banner ++ converse top style (chunks input)

end Console

end DottedLisp
