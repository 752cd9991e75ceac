/-!
# Code points and text

Text is a list of Unicode code points. Surrogates are code points of their own here: an escape in a
request can name a lone one, and it has to travel as far as the message that shows it. `Char` cannot
hold it, so text has a carrier of its own.
-/

namespace DottedLisp

/-- A Unicode code point, surrogates included. -/
structure CodePoint where
  /-- The number of the code point. -/
  val : Nat
  /-- Code points end at U+10FFFF. -/
  isLt : val < 0x110000
deriving DecidableEq

namespace CodePoint

/-- Every character is a code point. -/
def ofChar (c : Char) : CodePoint where
  val := c.toNat
  isLt := by
    have h := c.valid
    simp only [UInt32.isValidChar, Nat.isValidChar] at h
    simp only [Char.toNat]
    omega

instance : Coe Char CodePoint := ⟨ofChar⟩

/-- The code point of a number, if there is one. -/
def ofNat? (n : Nat) : Option CodePoint := if h : n < 0x110000 then some ⟨n, h⟩ else none

/-- The character of a code point; a surrogate has none and shows as U+FFFD. -/
def toChar (c : CodePoint) : Char := if c.val.isValidChar then Char.ofNat c.val else '�'

/-- The first halves of surrogate pairs. -/
def isHighSurrogate (c : CodePoint) : Bool := 0xD800 ≤ c.val ∧ c.val ≤ 0xDBFF

/-- The second halves of surrogate pairs. -/
def isLowSurrogate (c : CodePoint) : Bool := 0xDC00 ≤ c.val ∧ c.val ≤ 0xDFFF

end CodePoint

/-- Text as a list of code points. Positions and lengths count code points. -/
abbrev Text := List CodePoint

/-- The text of a string. -/
def text (s : String) : Text := s.toList.map CodePoint.ofChar

namespace Text

/-- The text as a string for an output stream. -/
def toString (s : Text) : String := String.ofList (s.map CodePoint.toChar)

/-- A natural number in base ten. -/
def ofNat (n : Nat) : Text := (Nat.toDigits 10 n).map CodePoint.ofChar

/-- An integer in base ten; a negative one has a minus sign in front. -/
def ofInt : Int → Text
  | .ofNat n => ofNat n
  | .negSucc n => text "-" ++ ofNat (n + 1)

/-- A number in lower-case hexadecimal digits, with zeros in front up to the given width. -/
def ofHex (width n : Nat) : Text :=
  let digits := Nat.toDigits 16 n
  (List.replicate (width - digits.length) '0' ++ digits).map CodePoint.ofChar

/-- The texts one after the other with a separator between any two. -/
def join (separator : Text) : List Text → Text
  | [] => []
  | [s] => s
  | s :: t :: rest => s ++ separator ++ join separator (t :: rest)

end Text

end DottedLisp
