import DottedLisp.Decimal.Shortest

/-!
# JSON values

The values that requests and settings are made of. Integers and numbers with a fraction are kept
apart, since they are shown apart. An object keeps its members in the order in which their names
first appeared.
-/

namespace DottedLisp

/-- A JSON value. -/
inductive Json where
  | null
  | bool (b : Bool)
  /-- A number without fraction and exponent. -/
  | int (n : Int)
  /-- Any other number. -/
  | float (d : Double)
  | str (s : Text)
  | arr (items : List Json)
  | obj (members : List (Text × Json))

namespace Json

instance : Inhabited Json := ⟨.null⟩

/-- The members of an object. -/
abbrev Members := List (Text × Json)

/-- Set a member: the place of a name is where it first appeared, its value the last one given. -/
def Members.insert (name : Text) (value : Json) : Members → Members
  | [] => [(name, value)]
  | (n, v) :: rest =>
    if n = name then (n, value) :: rest else (n, v) :: Members.insert name value rest

/-- The value of a member. -/
def Members.get? (name : Text) : Members → Option Json
  | [] => none
  | (n, v) :: rest => if n = name then some v else Members.get? name rest

/-- Members in the order given, later ones over earlier ones of the same name. -/
def Members.ofList (members : List (Text × Json)) : Members :=
  members.foldl (fun done (name, value) => Members.insert name value done) []

/-- Does the value count as true? Null, false, zeros and everything empty do not. -/
def isTrue : Json → Bool
  | .null => false
  | .bool b => b
  | .int n => n ≠ 0
  | .float d => !d.isZero
  | .str s => !s.isEmpty
  | .arr items => !items.isEmpty
  | .obj members => !members.isEmpty

/-- The kinds of values. -/
inductive Kind where
  | null
  | bool
  | int
  | float
  | str
  | arr
  | obj
deriving DecidableEq

/-- The kind of a value. -/
def kind : Json → Kind
  | .null => .null
  | .bool _ => .bool
  | .int _ => .int
  | .float _ => .float
  | .str _ => .str
  | .arr _ => .arr
  | .obj _ => .obj

end Json

end DottedLisp
