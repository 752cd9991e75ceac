import DottedLisp.Text.Blank

/-!
# Tokens

Both notations are made of the same tokens: parentheses, dots and words. They differ in what a word
may hold: the strict notation takes letters only, the loose one any run of characters that are
neither blanks nor marks. The type of words is a parameter for that.

`Token.scan` cuts any text into tokens. It reads from the right, so that a character can join the
word that starts right behind it.
-/

namespace DottedLisp

/-- A token whose words are of type `ω`. -/
inductive Token (ω : Type) where
  | lparen
  | rparen
  | dot
  | word (w : ω)
deriving DecidableEq

namespace Token

variable {ω : Type}

/-- The four sorts of tokens. -/
inductive Kind where
  | lparen
  | rparen
  | dot
  | word
deriving DecidableEq

/-- The sort of a token. -/
def kind : Token ω → Kind
  | .lparen => .lparen
  | .rparen => .rparen
  | .dot => .dot
  | .word _ => .word

/-- The token that a single character is, if it is a mark. -/
def mark? (c : CodePoint) : Option (Token ω) :=
  if c = '(' then some .lparen
  else if c = ')' then some .rparen
  else if c = '.' then some .dot
  else none

/-- Is the character a token by itself? -/
def isMark (c : CodePoint) : Bool := c = '(' ∨ c = ')' ∨ c = '.'

theorem isSome_mark? (c : CodePoint) : (mark? c : Option (Token ω)).isSome = isMark c := by
  unfold mark? isMark
  split
  · simp [*]
  · split
    · simp [*]
    · split <;> simp [*]

/-- The tokens of a text, with whether the text starts with a character of a word. -/
structure Scan where
  /-- Does the text start inside a word? -/
  inWord : Bool
  tokens : List (Token Text)

/-- A character that is no blank and no mark joins the word right behind it or makes a new one. -/
def Scan.join (c : CodePoint) : Scan → Scan
  | ⟨true, .word w :: ts⟩ => ⟨true, .word (c :: w) :: ts⟩
  | ⟨_, ts⟩ => ⟨true, .word [c] :: ts⟩

/-- Put one character in front of a text. -/
def Scan.push (c : CodePoint) (s : Scan) : Scan :=
  if c.isBlank then ⟨false, s.tokens⟩
  else match mark? c with
    | some m => ⟨false, m :: s.tokens⟩
    | none => s.join c

/-- The tokens of a text. -/
def scan (s : Text) : List (Token Text) := (s.foldr Scan.push ⟨false, []⟩).tokens

end Token

end DottedLisp
