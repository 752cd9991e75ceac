import DottedLisp.Text.Printable

/-!
# Quoted text

Messages and log records show a text in quotes. The quote is `'`, unless the text holds a `'` and
no `"`. A backslash, the quote in use and everything that is not printable are escaped, so a quoted
text holds printable characters only.
-/

namespace DottedLisp

namespace Text

/-- The quote that a text is shown in: `"` if that spares escaping a `'`, and `'` otherwise. -/
def quoteFor (s : Text) : CodePoint :=
  if (CodePoint.ofChar '\'') ∈ s ∧ (CodePoint.ofChar '"') ∉ s then '"' else '\''

/-- A code point by its number, in the shortest of the three widths that holds it. -/
def numericEscape (c : CodePoint) : Text :=
  if c.val < 0x100 then text "\\x" ++ ofHex 2 c.val
  else if c.val < 0x10000 then text "\\u" ++ ofHex 4 c.val
  else text "\\U" ++ ofHex 8 c.val

/-- One character inside the given quotes. -/
def escapeIn (quote c : CodePoint) : Text :=
  if c = quote ∨ c = '\\' then ['\\', c]
  else if c = '\n' then text "\\n"
  else if c = '\r' then text "\\r"
  else if c = '\t' then text "\\t"
  else if c.isPrintable then [c]
  else numericEscape c

/-- The text in quotes. -/
def quoted (s : Text) : Text :=
  let quote := quoteFor s
  quote :: (s.flatMap (escapeIn quote) ++ [quote])

end Text

end DottedLisp
