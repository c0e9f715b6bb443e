import SubLang.Text.Hex

/-!
Reading UTF-8.

Bytes are read from left to right. A fault names the bytes that make it up: the longest start of a
well-formed sequence that stands at the place of the fault. Overlong forms, surrogates and values
past U+10FFFF are refused at the first byte that shows them.
-/

namespace SubLang.Text

inductive Utf8Reason where
  | invalidStart
  | invalidContinuation
  | unexpectedEnd
  deriving DecidableEq, Repr

/-- A fault in UTF-8 text: `length` bytes from offset `start` on, the first of which is `byte`. -/
structure Utf8Fault where
  start : Nat
  length : Nat
  byte : UInt8
  reason : Utf8Reason
  deriving DecidableEq, Repr

def Utf8Reason.message : Utf8Reason → String
  | .invalidStart => "invalid start byte"
  | .invalidContinuation => "invalid continuation byte"
  | .unexpectedEnd => "unexpected end of data"

def Utf8Fault.message (f : Utf8Fault) : String :=
  let place :=
    if f.length = 1 then
      "byte 0x" ++ String.ofList (hexDigits 2 f.byte.toNat) ++ " in position " ++ toString f.start
    else
      "bytes in position " ++ toString f.start ++ "-" ++ toString (f.start + f.length - 1)
  "'utf-8' codec can't decode " ++ place ++ ": " ++ f.reason.message

/-- What the first byte of a sequence says: the number of bytes that follow, the bits it carries, and
the bounds of the byte after it. -/
structure Utf8Lead where
  follow : Nat
  bits : Nat
  low : Nat
  high : Nat
  deriving DecidableEq, Repr

def Utf8Lead.ofByte? (b : UInt8) : Option Utf8Lead :=
  let n := b.toNat
  if n < 0xC2 then none
  else if n < 0xE0 then some ⟨1, n - 0xC0, 0x80, 0xBF⟩
  else if n = 0xE0 then some ⟨2, 0, 0xA0, 0xBF⟩
  else if n = 0xED then some ⟨2, n - 0xE0, 0x80, 0x9F⟩
  else if n < 0xF0 then some ⟨2, n - 0xE0, 0x80, 0xBF⟩
  else if n = 0xF0 then some ⟨3, 0, 0x90, 0xBF⟩
  else if n < 0xF4 then some ⟨3, n - 0xF0, 0x80, 0xBF⟩
  else if n = 0xF4 then some ⟨3, n - 0xF0, 0x80, 0x8F⟩
  else none

/-- How far a decoder is: between two characters, or with `taken` bytes of a sequence read. -/
inductive Utf8State where
  | between
  | within (lead : UInt8) (taken : Nat) (left : Nat) (bits : Nat) (low high : Nat)

def decodeUtf8From : Utf8State → Nat → List UInt8 → Except Utf8Fault (List Char)
  | .between, _, [] => .ok []
  | .within lead taken _ _ _ _, pos, [] => .error ⟨pos - taken, taken, lead, .unexpectedEnd⟩
  | .between, pos, b :: bs =>
    if b.toNat < 0x80 then
      (decodeUtf8From .between (pos + 1) bs).map (Char.ofNat b.toNat :: ·)
    else
      match Utf8Lead.ofByte? b with
      | none => .error ⟨pos, 1, b, .invalidStart⟩
      | some l => decodeUtf8From (.within b 1 l.follow l.bits l.low l.high) (pos + 1) bs
  | .within lead taken left bits low high, pos, b :: bs =>
    if low ≤ b.toNat && b.toNat ≤ high then
      let bits := bits * 64 + (b.toNat - 0x80)
      if left = 1 then
        (decodeUtf8From .between (pos + 1) bs).map (Char.ofNat bits :: ·)
      else
        decodeUtf8From (.within lead (taken + 1) (left - 1) bits 0x80 0xBF) (pos + 1) bs
    else
      .error ⟨pos - taken, taken, lead, .invalidContinuation⟩

def decodeUtf8 (bytes : List UInt8) : Except Utf8Fault String :=
  (decodeUtf8From .between 0 bytes).map String.ofList

end SubLang.Text
