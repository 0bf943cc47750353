/-!
# UTF-8

Text as octets and octets as text. A list of octets that is not text is refused with the place of
the first sequence that is no character and the number of its octets that could still have begun
one.

* `encode`: the octets of a text.
* `decode`: the text of a list of octets, or the `Fault`.
-/

namespace SlotIndex.Utf8

/-- The octets of a text. -/
def encode (text : List Char) : List UInt8 :=
  text.flatMap String.utf8EncodeChar

/-- Why a list of octets is not text. -/
inductive Fault where
  /-- The sequence at `index` is no character from its octet `length` on. -/
  | invalid (length index : Nat)
  /-- The octets end inside the character that begins at `index`. -/
  | incomplete (index : Nat)
deriving DecidableEq

/-- The wording of a fault. -/
def Fault.message : Fault → String
  | .invalid length index => s!"invalid utf-8 sequence of {length} bytes from index {index}"
  | .incomplete index => s!"incomplete utf-8 byte sequence from index {index}"

/-- Octets that continue a character. -/
def isContinuation (b : UInt8) : Bool := 0x80 ≤ b && b ≤ 0xBF

/-- Second octets of a character of three octets: overlong forms and surrogates are left out. -/
def isSecondOfThree (lead b : UInt8) : Bool :=
  (if lead = 0xE0 then 0xA0 ≤ b else 0x80 ≤ b) && (if lead = 0xED then b ≤ 0x9F else b ≤ 0xBF)

/-- Second octets of a character of four octets: overlong forms and code points above
`0x10FFFF` are left out. -/
def isSecondOfFour (lead b : UInt8) : Bool :=
  (if lead = 0xF0 then 0x90 ≤ b else 0x80 ≤ b) && (if lead = 0xF4 then b ≤ 0x8F else b ≤ 0xBF)

/-- The six payload bits of a continuation octet. -/
def payload (b : UInt8) : Nat := b.toNat % 64

/-- The text of a list of octets whose first octet has the given index. -/
def decodeFrom (index : Nat) : List UInt8 → Except Fault (List Char)
  | [] => .ok []
  | a :: rest =>
    if a < 0x80 then
      (Char.ofNat a.toNat :: ·) <$> decodeFrom (index + 1) rest
    else if 0xC2 ≤ a && a ≤ 0xDF then
      match rest with
      | [] => .error (.incomplete index)
      | b :: rest =>
        if isContinuation b then
          (Char.ofNat (64 * (a.toNat % 32) + payload b) :: ·) <$> decodeFrom (index + 2) rest
        else .error (.invalid 1 index)
    else if 0xE0 ≤ a && a ≤ 0xEF then
      match rest with
      | [] => .error (.incomplete index)
      | b :: rest =>
        if !isSecondOfThree a b then .error (.invalid 1 index)
        else
          match rest with
          | [] => .error (.incomplete index)
          | c :: rest =>
            if isContinuation c then
              (Char.ofNat (4096 * (a.toNat % 16) + 64 * payload b + payload c) :: ·)
                <$> decodeFrom (index + 3) rest
            else .error (.invalid 2 index)
    else if 0xF0 ≤ a && a ≤ 0xF4 then
      match rest with
      | [] => .error (.incomplete index)
      | b :: rest =>
        if !isSecondOfFour a b then .error (.invalid 1 index)
        else
          match rest with
          | [] => .error (.incomplete index)
          | c :: rest =>
            if !isContinuation c then .error (.invalid 2 index)
            else
              match rest with
              | [] => .error (.incomplete index)
              | d :: rest =>
                if isContinuation d then
                  (Char.ofNat (262144 * (a.toNat % 8) + 4096 * payload b + 64 * payload c
                    + payload d) :: ·) <$> decodeFrom (index + 4) rest
                else .error (.invalid 3 index)
    else .error (.invalid 1 index)

/-- The text of a list of octets. -/
def decode (octets : List UInt8) : Except Fault (List Char) :=
  decodeFrom 0 octets

end SlotIndex.Utf8
