import DottedLisp.Json.Basic
import DottedLisp.Text.Digit

/-!
# Tokens of JSON text

A JSON text is cut into tokens with their positions. What cannot be a token, or breaks off within
one, is a token too, and the last one: whether it is an error, and which, depends on what was
expected at its place.

Numbers and words are read as far as they are valid. What follows is the next token.
-/

namespace DottedLisp.Json

/-- What is wrong with a JSON text. -/
inductive Cause where
  /-- A value should start here. -/
  | value
  /-- The name of a member should start here. -/
  | name
  /-- A colon should stand here. -/
  | colon
  /-- A comma, or the end of the array or object, should stand here. -/
  | comma
  /-- The text should end here. -/
  | extra
  /-- The string that starts here has no end. -/
  | unterminated
  /-- A string holds a control character. -/
  | control
  /-- A backslash with an unknown letter behind it. -/
  | escape
  /-- A numeric escape without its four digits. -/
  | unicodeEscape
  /-- The text starts with a byte order mark. -/
  | byteOrderMark
deriving DecidableEq

/-- A cause and its place. -/
structure Fault where
  cause : Cause
  /-- How many characters stand before the place. -/
  position : Nat
deriving DecidableEq

/-- A token of JSON text. -/
inductive Lexeme where
  | openArray
  | closeArray
  | openObject
  | closeObject
  | colon
  | comma
  | string (s : Text)
  /-- A value that is no string, array or object. -/
  | scalar (v : Json)
  /-- An integer with more digits than are taken. -/
  | longInteger (digits : Nat)
  /-- A string with a fault. -/
  | broken (f : Fault)
  /-- No token starts like this. -/
  | junk

/-- The most digits that an integer may have. -/
def maxDigits : Nat := 4300

/-! ## Strings -/

/-- Join surrogate pairs, from left to right. -/
def joinSurrogates : Text → Text
  | [] => []
  | [c] => [c]
  | c :: d :: rest =>
    if c.isHighSurrogate && d.isLowSurrogate then
      (CodePoint.ofNat? (0x10000 + (c.val - 0xD800) * 0x400 + (d.val - 0xDC00))).toList
        ++ joinSurrogates rest
    else c :: joinSurrogates (d :: rest)

/-- Where the reader of a string stands. -/
inductive Inside where
  | plain
  | escaped
  /-- Behind the `u` at a position, with digits still needed. -/
  | hex (position needed value : Nat)
  /-- Right behind the last digit of the escape whose `u` is at a position. -/
  | afterHex (position : Nat)

/-- The character that a letter behind a backslash stands for. -/
def simpleEscape? (c : CodePoint) : Option CodePoint :=
  if c = '"' ∨ c = '\\' ∨ c = '/' then some c
  else if c = 'b' then some '\x08'
  else if c = 'f' then some '\x0c'
  else if c = 'n' then some '\n'
  else if c = 'r' then some '\r'
  else if c = 't' then some '\t'
  else none

/-- The fault of a string that ends with the text. `start` is the place of its opening quote. -/
def Inside.endFault (start : Nat) : Inside → Fault
  | .hex p _ _ | .afterHex p => ⟨.unicodeEscape, p⟩
  | _ => ⟨.unterminated, start⟩

/-- Read a string up to its closing quote: its characters and the position behind it. `done` holds
the characters so far, last one first. -/
def readString (start : Nat) : (position : Nat) → Inside → (done : Text) → Text →
    Except Fault (Text × Nat)
  | _, inside, _, [] => .error (inside.endFault start)
  | p, .escaped, done, c :: rest =>
    if c = 'u' then readString start (p + 1) (.hex p 4 0) done rest
    else match simpleEscape? c with
      | some d => readString start (p + 1) .plain (d :: done) rest
      | none => .error ⟨.escape, p - 1⟩
  | p, .hex u needed value, done, c :: rest =>
    match c.hexDigit? with
    | none => .error ⟨.unicodeEscape, u⟩
    | some d =>
      let value := value * 16 + d
      if needed ≤ 1 then
        readString start (p + 1) (.afterHex u) ((CodePoint.ofNat? value).toList ++ done) rest
      else readString start (p + 1) (.hex u (needed - 1) value) done rest
  | p, _, done, c :: rest =>
    if c = '"' then .ok (joinSurrogates done.reverse, p + 1)
    else if c = '\\' then readString start (p + 1) .escaped done rest
    else if c.val < 0x20 then .error ⟨.control, p⟩
    else readString start (p + 1) .plain (c :: done) rest

/-! ## Numbers -/

/-- The digits of a whole number at the start of a text: a zero alone, or no zero in front. -/
def wholeDigits (s : Text) : Text :=
  match s with
  | c :: _ => if c = '0' then [c] else s.takeWhile CodePoint.isAsciiDigit
  | [] => []

/-- The digits behind a point at the start of a text. -/
def fractionDigits : Text → Text
  | c :: rest => if c = '.' then rest.takeWhile CodePoint.isAsciiDigit else []
  | [] => []

/-- The sign and the digits behind an exponent mark at the start of a text. -/
def exponentParts : Text → Text × Text
  | [] => ([], [])
  | mark :: rest =>
    if mark = 'e' ∨ mark = 'E' then
      let sign := (rest.take 1).filter fun (c : CodePoint) => c = '+' ∨ c = '-'
      (sign, (rest.drop sign.length).takeWhile CodePoint.isAsciiDigit)
    else ([], [])

/-- The number at the start of a text, with its length. -/
def number? (s : Text) : Option (Lexeme × Nat) :=
  let sign := (s.take 1).filter fun (c : CodePoint) => c = '-'
  let whole := wholeDigits (s.drop sign.length)
  if whole.isEmpty then none
  else
    let negative := !sign.isEmpty
    let afterWhole := s.drop (sign.length + whole.length)
    let fraction := fractionDigits afterWhole
    let fractionLength := if fraction.isEmpty then 0 else fraction.length + 1
    let (expSign, exponent) := exponentParts (afterWhole.drop fractionLength)
    let exponentLength := if exponent.isEmpty then 0 else 1 + expSign.length + exponent.length
    let length := sign.length + whole.length + fractionLength + exponentLength
    if fraction.isEmpty ∧ exponent.isEmpty then
      if maxDigits < whole.length then some (.longInteger whole.length, length)
      else
        let n : Int := Text.toNat whole
        some (.scalar (.int (if negative then -n else n)), length)
    else
      let e : Int := Text.toNat exponent
      let e := if expSign = [CodePoint.ofChar '-'] then -e else e
      let d := Double.ofDecimal negative (Text.toNat (whole ++ fraction)) (e - fraction.length)
      some (.scalar (.float d), length)

/-! ## All tokens -/

/-- The words that are values. -/
def words : List (Text × Json) :=
  [(text "null", .null), (text "true", .bool true), (text "false", .bool false),
   (text "NaN", .float .nan), (text "Infinity", .float (.infinite false)),
   (text "-Infinity", .float (.infinite true))]

/-- The tokens of a single character. -/
def mark? (c : CodePoint) : Option Lexeme :=
  if c = '[' then some .openArray
  else if c = ']' then some .closeArray
  else if c.val = 0x7B then some .openObject
  else if c.val = 0x7D then some .closeObject
  else if c = ':' then some .colon
  else if c = ',' then some .comma
  else none

/-- The token at the start of a text that is not empty, with its length. -/
def lexeme (position : Nat) (s : Text) (c : CodePoint) (rest : Text) : Lexeme × Nat :=
  match mark? c with
  | some m => (m, 1)
  | none =>
    if c = '"' then
      match readString position (position + 1) .plain [] rest with
      | .ok (value, after) => (.string value, after - position)
      | .error f => (.broken f, 1)
    else
      match words.find? fun (word, _) => word.isPrefixOf s with
      | some (word, value) => (.scalar value, word.length)
      | none => (number? s).getD (.junk, 1)

/-- Does nothing after the token matter? -/
def Lexeme.isLast : Lexeme → Bool
  | .broken _ | .junk | .longInteger _ => true
  | _ => false

/-- The blanks of JSON. -/
def isSpace (c : CodePoint) : Bool := c = ' ' ∨ c = '\t' ∨ c = '\n' ∨ c = '\r'

/-- The tokens of a text with their positions. The first `skip` characters belong to the token
before them. -/
def lexemes : (skip position : Nat) → Text → List (Nat × Lexeme)
  | _, _, [] => []
  | skip + 1, p, _ :: rest => lexemes skip (p + 1) rest
  | 0, p, c :: rest =>
    if isSpace c then lexemes 0 (p + 1) rest
    else
      let (token, length) := lexeme p (c :: rest) c rest
      if token.isLast then [(p, token)] else (p, token) :: lexemes (length - 1) (p + 1) rest

end DottedLisp.Json
