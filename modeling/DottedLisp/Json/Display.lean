import DottedLisp.Json.Basic
import DottedLisp.Text.Quoted

/-!
# Values in messages

A message shows a string as it is, and any other value in full: `None`, `True`, `False`, numbers,
`[...]` and `{name: value}`, with the strings inside in quotes.
-/

namespace DottedLisp

namespace Json

mutual

/-- A value in full, with strings in quotes. -/
def shown : Json → Text
  | .null => text "None"
  | .bool b => text (if b then "True" else "False")
  | .int n => Text.ofInt n
  | .float d => d.text
  | .str s => s.quoted
  | .arr items => text "[" ++ shownItems items ++ text "]"
  | .obj members => text "\x7b" ++ shownMembers members ++ text "\x7d"

/-- Items with commas between them. -/
def shownItems : List Json → Text
  | [] => []
  | [item] => item.shown
  | item :: items => item.shown ++ text ", " ++ shownItems items

/-- Members with commas between them. -/
def shownMembers : List (Text × Json) → Text
  | [] => []
  | [(name, value)] => name.quoted ++ text ": " ++ value.shown
  | (name, value) :: members =>
    name.quoted ++ text ": " ++ value.shown ++ text ", " ++ shownMembers members

end

/-- A value in a message. -/
def display : Json → Text
  | .str s => s
  | value => value.shown

end Json

end DottedLisp
