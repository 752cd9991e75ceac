import DottedLisp.Json.Lexeme

/-!
# Reading JSON

A value is read token by token, with the open arrays and objects on a stack. Arrays and objects nest
up to a limit. A fault has a position, which the message gives as a line, a column and an offset.
-/

namespace DottedLisp.Json

/-- Why a text is not read. -/
inductive ReadFailure where
  /-- The text is no JSON. -/
  | malformed (f : Fault)
  /-- An integer has more digits than are taken. -/
  | longInteger (digits : Nat)
  /-- Arrays and objects nest deeper than the limit. -/
  | tooDeep
deriving DecidableEq

/-- An array or object in which a value is being read. -/
inductive Frame where
  /-- An array with its items so far, last one first. -/
  | item (items : List Json)
  /-- An object with its members so far, last one first, and the name of the value. -/
  | member (members : List (Text × Json)) (name : Text)

/-- What the reader waits for. -/
inductive State where
  | value
  /-- The first item of an array, or its end. -/
  | firstItem
  /-- The first name of an object, or its end. -/
  | firstName
  | name (members : List (Text × Json))
  | colon (members : List (Text × Json)) (name : Text)
  /-- What may follow a value. -/
  | after (v : Json)

/-- The fault where a token cannot stand. -/
def State.cause : State → List Frame → Cause
  | .value, _ | .firstItem, _ => .value
  | .firstName, _ | .name _, _ => .name
  | .colon _ _, _ => .colon
  | .after _, [] => .extra
  | .after _, _ => .comma

/-- What the reader waits for, inside which arrays and objects. -/
structure Reading where
  state : State
  /-- The open arrays and objects, innermost first. -/
  stack : List Frame

namespace Reading

/-- A value starts with the token. -/
def start (limit position : Nat) (stack : List Frame) : Lexeme → Except ReadFailure Reading
  | .string s => .ok ⟨.after (.str s), stack⟩
  | .scalar v => .ok ⟨.after v, stack⟩
  | .openArray => if limit ≤ stack.length then .error .tooDeep else .ok ⟨.firstItem, stack⟩
  | .openObject => if limit ≤ stack.length then .error .tooDeep else .ok ⟨.firstName, stack⟩
  | .longInteger digits => .error (.longInteger digits)
  | .broken f => .error (.malformed f)
  | _ => .error (.malformed ⟨.value, position⟩)

/-- The name of a member. -/
def startName (position : Nat) (members : List (Text × Json)) (stack : List Frame) :
    Lexeme → Except ReadFailure Reading
  | .string s => .ok ⟨.colon members s, stack⟩
  | .broken f => .error (.malformed f)
  | _ => .error (.malformed ⟨.name, position⟩)

/-- One token. -/
def step (limit : Nat) (r : Reading) (token : Nat × Lexeme) : Except ReadFailure Reading :=
  let (p, t) := token
  match r.state, r.stack, t with
  | .value, stack, t => start limit p stack t
  | .firstItem, stack, .closeArray => .ok ⟨.after (.arr []), stack⟩
  | .firstItem, stack, t => start limit p (.item [] :: stack) t
  | .firstName, stack, .closeObject => .ok ⟨.after (.obj []), stack⟩
  | .firstName, stack, t => startName p [] stack t
  | .name members, stack, t => startName p members stack t
  | .colon members name, stack, .colon => .ok ⟨.value, .member members name :: stack⟩
  | .after v, .item items :: stack, .comma => .ok ⟨.value, .item (v :: items) :: stack⟩
  | .after v, .item items :: stack, .closeArray => .ok ⟨.after (.arr (v :: items).reverse), stack⟩
  | .after v, .member members name :: stack, .comma => .ok ⟨.name ((name, v) :: members), stack⟩
  | .after v, .member members name :: stack, .closeObject =>
    .ok ⟨.after (.obj (Members.ofList ((name, v) :: members).reverse)), stack⟩
  | state, stack, _ => .error (.malformed ⟨state.cause stack, p⟩)

/-- The value at the end of a text of the given length. -/
def finish (length : Nat) : Reading → Except ReadFailure Json
  | ⟨.after v, []⟩ => .ok v
  | ⟨state, stack⟩ => .error (.malformed ⟨state.cause stack, length⟩)

end Reading

/-- Read a text that holds one JSON value. -/
def read (limit : Nat) (s : Text) : Except ReadFailure Json :=
  if s.head?.map CodePoint.val = some 0xFEFF then .error (.malformed ⟨.byteOrderMark, 0⟩)
  else do
    let r ← (lexemes 0 0 s).foldlM (Reading.step limit) ⟨.value, []⟩
    r.finish s.length

/-! ## Messages -/

/-- The words for a cause. -/
def Cause.message : Cause → String
  | .value => "Expecting value"
  | .name => "Expecting property name enclosed in double quotes"
  | .colon => "Expecting ':' delimiter"
  | .comma => "Expecting ',' delimiter"
  | .extra => "Extra data"
  | .unterminated => "Unterminated string starting at"
  | .control => "Invalid control character at"
  | .escape => "Invalid \\escape"
  | .unicodeEscape => "Invalid \\uXXXX escape"
  | .byteOrderMark => "Unexpected UTF-8 BOM (decode using utf-8-sig)"

/-- The message for a fault in a text. Lines and columns count from one, the offset from zero. -/
def Fault.message (s : Text) (f : Fault) : Text :=
  let before := s.take f.position
  let line := before.count (CodePoint.ofChar '\n') + 1
  let column := (before.reverse.takeWhile fun c => c ≠ CodePoint.ofChar '\n').length + 1
  text f.cause.message ++ text ": line " ++ Text.ofNat line ++ text " column " ++ Text.ofNat column
    ++ text " (char " ++ Text.ofNat f.position ++ text ")"

end DottedLisp.Json
