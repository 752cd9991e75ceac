import DottedLisp.Expr.Parser

/-!
# Token streams

A stream hands out the tokens of a text one at a time and can look one token ahead. An illegal
character is an error only when the stream reaches it; after that the stream is at its end.

Each operation gives its result and the stream behind it, also when the result is an error.
-/

namespace DottedLisp

/-- The tokens of a text that are still to come. -/
structure Stream where
  /-- The token that was looked at and not yet taken. -/
  buffer : Option (Token Atom)
  /-- The tokens after it. -/
  pending : List (Token Atom)
  /-- The illegal character at the end of the tokens. -/
  illegal : Option Illegal

namespace Stream

/-- The stream of a text. -/
def ofText (s : Text) : Stream where
  buffer := none
  pending := (lex s).tokens
  illegal := (lex s).illegal

/-- The tokens that are still to come. -/
def remaining (s : Stream) : List (Token Atom) := s.buffer.toList ++ s.pending

/-- Take the first token that is not in the buffer; there is none at the end. -/
def pull (s : Stream) : Except Error (Option (Token Atom)) × Stream :=
  match s.pending, s.illegal with
  | token :: tokens, _ => (.ok (some token), { s with pending := tokens })
  | [], some i => (.error (.illegalCharacter i), { s with illegal := none })
  | [], none => (.ok none, s)

/-- Look at the next token. -/
def peek (s : Stream) : Except Error (Option (Token Atom)) × Stream :=
  match s.buffer with
  | some token => (.ok (some token), s)
  | none =>
    match s.pull with
    | (.ok (some token), s') => (.ok (some token), { s' with buffer := some token })
    | other => other

/-- **Looking at a token takes none.** -/
@[simp] theorem remaining_peek (s : Stream) : s.peek.2.remaining = s.remaining := by
  rcases s with ⟨buffer, pending, illegal⟩
  cases buffer <;> cases pending <;> cases illegal <;> rfl

/-- Take the next token. -/
def take (s : Stream) : Except Error (Option (Token Atom)) × Stream :=
  match s.buffer with
  | some token => (.ok (some token), { s with buffer := none })
  | none => s.pull

/-- Take the next token, which has to be one that is wanted; `what` names it in the error. -/
def expect (wanted : Token Atom → Bool) (what : Text) (s : Stream) : Except Error Unit × Stream :=
  match s.take with
  | (.error e, s') => (.error e, s')
  | (.ok got, s') =>
    if got.any wanted then (.ok (), s') else (.error (.expected what got), s')

/-- Take the tokens of one expression. -/
def parse (s : Stream) : Except Error Expr × Stream :=
  match Parser.parse (.start []) s.remaining with
  | .stopped r rest => (r, { s with buffer := none, pending := rest })
  | .ended state =>
    (.error ((s.illegal.map Error.illegalCharacter).getD state.endError), ⟨none, [], none⟩)

end Stream

/-- The expressions of a stream in turn. After its end or an error there is no further one. -/
structure Cursor where
  stream : Stream
  /-- Did the cursor reach its end, or an error? -/
  finished : Bool

namespace Cursor

/-- A cursor on the expressions of a text. -/
def ofText (s : Text) : Cursor := ⟨Stream.ofText s, false⟩

/-- The next expression, if there is one. -/
def next (c : Cursor) : Except Error (Option Expr) × Cursor :=
  if c.finished then (.ok none, c)
  else match c.stream.peek with
    | (.error e, s) => (.error e, ⟨s, true⟩)
    | (.ok none, s) => (.ok none, ⟨s, true⟩)
    | (.ok (some _), s) =>
      match s.parse with
      | (.error e, s') => (.error e, ⟨s', true⟩)
      | (.ok e, s') => (.ok (some e), ⟨s', false⟩)

end Cursor

end DottedLisp
