import DottedLisp.Text.Table

/-!
# Blank characters

Blanks separate words in both notations, are stripped from settings and make a console line empty.
-/

namespace DottedLisp

namespace CodePoint

/-- The blank code points of Unicode 14: spaces, line and paragraph ends, and four separators. -/
def blankTable : Table :=
  [(0x9, 0xd), (0x1c, 0x20), (0x85, 0x85), (0xa0, 0xa0), (0x1680, 0x1680), (0x2000, 0x200a),
   (0x2028, 0x2029), (0x202f, 0x202f), (0x205f, 0x205f), (0x3000, 0x3000)]

/-- Is the code point a blank? -/
def isBlank (c : CodePoint) : Bool := blankTable.contains c.val

end CodePoint

end DottedLisp
