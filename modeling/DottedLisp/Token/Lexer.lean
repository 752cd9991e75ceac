import DottedLisp.Expr.Atom
import DottedLisp.Token

/-!
# Tokens of the strict notation

In the strict notation a text may hold blanks, letters, parentheses and dots, and nothing else. The
first other character is illegal: the tokens before it can be used, what follows it is never looked
at. In the legal part every word is a run of letters, hence the name of an atom.
-/

namespace DottedLisp

/-- May the character stand in the strict notation? -/
def CodePoint.isLegal (c : CodePoint) : Bool :=
  c.isBlank || c.isLetter || Token.isMark c

/-- The first illegal character of a text. -/
structure Illegal where
  /-- The character. -/
  char : CodePoint
  /-- How many characters stand before it. -/
  position : Nat
deriving DecidableEq

/-- The tokens of a text up to its first illegal character, and that character. -/
structure Lexed where
  /-- The tokens before the illegal character. -/
  tokens : List (Token Atom)
  /-- The illegal character, if there is one. -/
  illegal : Option Illegal

namespace Token

/-- A token whose word names an atom. -/
def spelled? : Token Text → Option (Token Atom)
  | .lparen => some .lparen
  | .rparen => some .rparen
  | .dot => some .dot
  | .word w => (Atom.ofText? w).map .word

/-- The characters of a token. -/
def text : Token Atom → Text
  | .lparen => ['(']
  | .rparen => [')']
  | .dot => ['.']
  | .word a => a.name

end Token

/-- The tokens of a text in the strict notation. Every word of the legal part is a name, so no token
is dropped. -/
def lex (s : Text) : Lexed where
  tokens := (Token.scan (s.takeWhile CodePoint.isLegal)).filterMap Token.spelled?
  illegal := (s.dropWhile CodePoint.isLegal).head?.map
    fun c => ⟨c, (s.takeWhile CodePoint.isLegal).length⟩

end DottedLisp
