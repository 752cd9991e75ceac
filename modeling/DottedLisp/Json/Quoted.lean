import DottedLisp.Text.CodePoint

/-!
# JSON strings in ASCII

Replies are sent in ASCII: a character outside printable ASCII is written by its 16-bit units, and
one beyond U+FFFF takes two of them. So a written string never holds a line end.
-/

namespace DottedLisp

namespace Json

/-- A 16-bit unit as an escape. -/
def unitEscape (n : Nat) : Text := text "\\u" ++ Text.ofHex 4 n

/-- One character of a string. -/
def escape (c : CodePoint) : Text :=
  if c = '"' then text "\\\""
  else if c = '\\' then text "\\\\"
  else if c = '\n' then text "\\n"
  else if c = '\r' then text "\\r"
  else if c = '\t' then text "\\t"
  else if c.val = 0x0C then text "\\f"
  else if c.val = 0x08 then text "\\b"
  else if 0x20 ≤ c.val ∧ c.val < 0x7F then [c]
  else if c.val < 0x10000 then unitEscape c.val
  else
    let rest := c.val - 0x10000
    unitEscape (0xD800 + rest / 0x400) ++ unitEscape (0xDC00 + rest % 0x400)

/-- A string in quotes. -/
def quoted (s : Text) : Text := '"' :: (s.flatMap escape ++ [CodePoint.ofChar '"'])

end Json

end DottedLisp
