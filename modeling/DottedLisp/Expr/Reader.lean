import DottedLisp.Token.Stream

/-!
# Reading dotted text

`Expr.read` takes a text for exactly one expression, `Expr.readAll` for any number of them.
-/

namespace DottedLisp

namespace Expr

/-- Read a text that holds exactly one expression. -/
def read (s : Text) : Except Error Expr :=
  match (Stream.ofText s).parse with
  | (.error e, _) => .error e
  | (.ok e, rest) =>
    match rest.peek with
    | (.error e, _) => .error e
    | (.ok (some token), _) => .error (.trailing token)
    | (.ok none, _) => .ok e

/-- Read all expressions of a text, up to the first error. -/
def readAll (s : Text) : Parser.Reading :=
  Parser.parseAll ((lex s).illegal.map .illegalCharacter) (.start []) (lex s).tokens

end Expr

end DottedLisp
