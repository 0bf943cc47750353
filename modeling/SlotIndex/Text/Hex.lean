import SlotIndex.Text.Latin
import SlotIndex.Text.Quoted
import SlotIndex.Text.Utf8

/-!
# Hexadecimal text

Byte lists as pairs of hexadecimal digits. Reading works on the octets of the text: the number of
octets must be even, then one leading `0x` or `0X` may be dropped, then every octet must be a digit
of either case.

* `nibbles`: the values of the digits.
* `encode`: two lower-case digits per byte; `prefixed` puts `0x` in front.
* `decode`: the bytes of a text, or the `Fault`.
* `decodeExactly`: the same for a fixed number of bytes.
-/

namespace SlotIndex.Hex

/-- Why a text is not hexadecimal. -/
inductive Fault where
  | oddLength
  | badLength
  /-- The octet at `position`, counted after the removed `0x`, is no digit. -/
  | badDigit (octet : UInt8) (position : Nat)
deriving DecidableEq

/-- The wording of a fault. -/
def Fault.message : Fault → String
  | .oddLength => "odd number of digits"
  | .badLength => "invalid string length"
  | .badDigit octet position =>
    s!"invalid character {Text.quoted Text.singleMark [Text.ofOctet octet]} at position {position}"

/-- The digit of a value below 16. -/
def digit (n : Nat) : Char :=
  if n < 10 then Char.ofNat (48 + n) else Char.ofNat (87 + n)

/-- The value of an octet that is a digit of either case. -/
def value? (b : UInt8) : Option Nat :=
  if 48 ≤ b && b ≤ 57 then some (b.toNat - 48)
  else if 97 ≤ b && b ≤ 102 then some (b.toNat - 87)
  else if 65 ≤ b && b ≤ 70 then some (b.toNat - 55)
  else none

/-- The values of the two digits of each byte. -/
def nibbles (bytes : List UInt8) : List Nat :=
  bytes.flatMap fun b => [b.toNat / 16, b.toNat % 16]

/-- Two lower-case digits per byte. -/
def encode (bytes : List UInt8) : List Char :=
  bytes.flatMap fun b => [digit (b.toNat / 16), digit (b.toNat % 16)]

/-- The digits of a byte list after `0x`. -/
def prefixed (bytes : List UInt8) : String :=
  String.ofList ('0' :: 'x' :: encode bytes)

/-- The value of the digit at a position. -/
def digitAt (position : Nat) (b : UInt8) : Except Fault Nat :=
  match value? b with
  | some n => .ok n
  | none => .error (.badDigit b position)

/-- The bytes written by pairs of digits, the first of which has the given position. -/
def pairs (position : Nat) : List UInt8 → Except Fault (List UInt8)
  | high :: low :: rest =>
    match digitAt position high, digitAt (position + 1) low, pairs (position + 2) rest with
    | .ok h, .ok l, .ok bytes => .ok (UInt8.ofNat (16 * h + l) :: bytes)
    | .error e, _, _ => .error e
    | .ok _, .error e, _ => .error e
    | .ok _, .ok _, .error e => .error e
  | _ => .ok []

/-- Octets without one leading `0x` or `0X`. -/
def dropMark : List UInt8 → List UInt8
  | 48 :: 120 :: rest => rest
  | 48 :: 88 :: rest => rest
  | octets => octets

/-- The bytes that a text writes. -/
def decode (text : List Char) : Except Fault (List UInt8) :=
  let octets := Utf8.encode text
  if octets.length % 2 = 1 then .error .oddLength
  else pairs 0 (dropMark octets)

/-- The bytes that a text writes, if they are `n`. -/
def decodeExactly (n : Nat) (text : List Char) : Except Fault (List UInt8) :=
  let octets := Utf8.encode text
  if octets.length % 2 = 1 then .error .oddLength
  else
    let digits := dropMark octets
    if digits.length = 2 * n then pairs 0 digits else .error .badLength

end SlotIndex.Hex
