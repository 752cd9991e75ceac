import DottedLisp.Text.CodePoint

/-!
# Decoding UTF-8

Strict decoding: overlong forms, surrogates and numbers above U+10FFFF are faults. A fault covers
the bytes of the sequence that were still in order, and says what came after them.

A sequence is known by its first byte: how many bytes follow, and in which range the second one
lies. The other bytes lie in 80 to BF. The narrowed range of the second byte is what rules out
overlong forms, surrogates and numbers that are too large.
-/

namespace DottedLisp.Utf8

/-- Why a sequence of bytes is no character. -/
inductive Reason where
  /-- The first byte starts no sequence. -/
  | start
  /-- A byte of the sequence lies outside its range. -/
  | continuation
  /-- The data ends within the sequence. -/
  | cutOff
deriving DecidableEq

/-- The bytes in error, by the position and value of the first and by their number. -/
structure Fault where
  /-- Offset of the first byte in error. -/
  position : Nat
  byte : UInt8
  count : Nat
  reason : Reason
deriving DecidableEq

/-- What a first byte announces. -/
structure Lead where
  /-- The bits of the code point that the first byte holds. -/
  bits : Nat
  /-- The number of bytes that follow. -/
  following : Nat
  /-- The least second byte. -/
  low : Nat
  /-- The greatest second byte. -/
  high : Nat

/-- The sequence that a byte starts. -/
def lead? (b : Nat) : Option Lead :=
  if b < 0x80 then some ⟨b, 0, 0x80, 0xBF⟩
  else if b < 0xC2 then none
  else if b < 0xE0 then some ⟨b - 0xC0, 1, 0x80, 0xBF⟩
  else if b < 0xF0 then
    some ⟨b - 0xE0, 2, if b = 0xE0 then 0xA0 else 0x80, if b = 0xED then 0x9F else 0xBF⟩
  else if b < 0xF5 then
    some ⟨b - 0xF0, 3, if b = 0xF0 then 0x90 else 0x80, if b = 0xF4 then 0x8F else 0xBF⟩
  else none

/-- A sequence that has begun: where, with which byte, and what it still needs. -/
structure Open where
  position : Nat
  byte : UInt8
  /-- The number of bytes read, the first one included. -/
  count : Nat
  /-- The value of the bytes read. -/
  value : Nat
  /-- The number of bytes still needed. -/
  needed : Nat
  /-- The least next byte. -/
  low : Nat
  /-- The greatest next byte. -/
  high : Nat

/-- The fault of a sequence that cannot go on. -/
def Open.fault (o : Open) (reason : Reason) : Fault := ⟨o.position, o.byte, o.count, reason⟩

/-- The text of the bytes; `done` is the text so far, last character first. -/
def decodeFrom (position : Nat) (done : Text) : Option Open → List UInt8 → Except Fault Text
  | none, [] => .ok done.reverse
  | some o, [] => .error (o.fault .cutOff)
  | none, b :: bytes =>
    match lead? b.toNat with
    | none => .error ⟨position, b, 1, .start⟩
    | some l =>
      if l.following = 0 then decodeFrom (position + 1) (push l.bits done) none bytes
      else decodeFrom (position + 1) done
        (some ⟨position, b, 1, l.bits, l.following, l.low, l.high⟩) bytes
  | some o, b :: bytes =>
    if b.toNat < o.low ∨ o.high < b.toNat then .error (o.fault .continuation)
    else
      let value := o.value * 64 + (b.toNat - 0x80)
      if o.needed ≤ 1 then decodeFrom (position + 1) (push value done) none bytes
      else decodeFrom (position + 1) done
        (some { o with
          count := o.count + 1, value, needed := o.needed - 1, low := 0x80, high := 0xBF })
        bytes
where
  /-- Add a character to the text so far. The ranges above keep every value a code point. -/
  push (n : Nat) (done : Text) : Text := (CodePoint.ofNat? n).toList ++ done

/-- Decode bytes as UTF-8. -/
def decode (bytes : List UInt8) : Except Fault Text := decodeFrom 0 [] none bytes

/-- The words for a reason. -/
def Reason.message : Reason → String
  | .start => "invalid start byte"
  | .continuation => "invalid continuation byte"
  | .cutOff => "unexpected end of data"

/-- The message for a fault: one byte is shown with its value, several by their positions. -/
def Fault.message (f : Fault) : Text :=
  let place :=
    if f.count ≤ 1 then
      text "byte 0x" ++ Text.ofHex 2 f.byte.toNat ++ text " in position " ++ Text.ofNat f.position
    else
      text "bytes in position " ++ Text.ofNat f.position ++ text "-"
        ++ Text.ofNat (f.position + f.count - 1)
  text "'utf-8' codec can't decode " ++ place ++ text ": " ++ text f.reason.message

end DottedLisp.Utf8
