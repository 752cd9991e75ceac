import DottedLisp.Error

/-!
# Parsing dotted expressions

One expression is parsed token by token, with the open pairs on a stack. A frame of the stack waits
for its car, or has its car and waits for its cdr. Nesting costs stack space of the machine only in
the list of frames, so texts of any depth can be parsed.

`Parser.step` is one token, `Parser.parse` the tokens of one expression and `Parser.parseAll` those
of a whole text. All three go along the list of tokens, which is why they end.
-/

namespace DottedLisp

namespace Parser

/-- A pair that is open. -/
inductive Frame where
  /-- Nothing of the pair is read. -/
  | opened
  /-- The car is read, and the dot behind it. -/
  | dotted (car : Expr)
deriving DecidableEq

/-- What the parser waits for. -/
inductive State where
  | start (stack : List Frame)
  /-- The dot behind a car. -/
  | dot (car : Expr) (stack : List Frame)
  /-- The parenthesis that closes a pair, which is otherwise complete. -/
  | close (pair : Expr) (stack : List Frame)
deriving DecidableEq

/-- The parser goes on, or stops with an expression or an error. -/
inductive Step where
  | next (s : State)
  | stop (r : Except Error Expr)

/-- What to wait for behind an expression: the innermost open pair decides. -/
def settle (e : Expr) : List Frame → Step
  | [] => .stop (.ok e)
  | .opened :: stack => .next (.dot e stack)
  | .dotted car :: stack => .next (.close (.pair car e) stack)

/-- One token. -/
def step : State → Token Atom → Step
  | .start stack, .lparen => .next (.start (.opened :: stack))
  | .start stack, .word a => settle (.atom a) stack
  | .start _, token => .stop (.error (.unexpected token))
  | .dot car stack, .dot => .next (.start (.dotted car :: stack))
  | .dot _ _, token => .stop (.error (.expected (text "'.'") (some token)))
  | .close pair stack, .rparen => settle pair stack
  | .close _ _, token => .stop (.error (.expected (text "')'") (some token)))

/-- The error of a text that ends in a state. -/
def State.endError : State → Error
  | .start _ => .unexpectedEnd
  | .dot _ _ => .expected (text "'.'") none
  | .close _ _ => .expected (text "')'") none

/-- Parsing one expression stops with a result and the tokens it did not touch, or the tokens
end. -/
inductive Parsed where
  /-- The parser stopped before the remaining tokens. -/
  | stopped (r : Except Error Expr) (rest : List (Token Atom))
  /-- The tokens ended while the parser was waiting. -/
  | ended (s : State)

/-- Parse one expression. -/
def parse : State → List (Token Atom) → Parsed
  | s, [] => .ended s
  | s, token :: tokens =>
    match step s token with
    | .next s' => parse s' tokens
    | .stop r => .stopped r tokens

/-- The expressions of a text, and the error that came after them. -/
structure Reading where
  /-- The expressions before the error. -/
  values : List Expr
  fault : Option Error

/-- Parse expressions up to the end of the tokens. The end is in order where an expression could
start; `broken` is what makes it an error there and elsewhere, an illegal character. -/
def parseAll (broken : Option Error) : State → List (Token Atom) → Reading
  | .start [], [] => ⟨[], broken⟩
  | s, [] => ⟨[], some (broken.getD s.endError)⟩
  | s, token :: tokens =>
    match step s token with
    | .next s' => parseAll broken s' tokens
    | .stop (.error e) => ⟨[], some e⟩
    | .stop (.ok e) =>
      let rest := parseAll broken (.start []) tokens
      ⟨e :: rest.values, rest.fault⟩

end Parser

end DottedLisp
