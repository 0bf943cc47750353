import SlotIndex.CoreNat
import SlotIndex.Text.Latin
import SlotIndex.Text.Utf8

/-!
# Decimal text

Numbers written in base ten.

* `digits`: the shortest decimal text of a number.
* `readUnsigned`, `readUInt64`: a number below a limit, with an optional plus sign and at least one
  digit.
* `readNumeral`: an unsigned number below `256 ^ 32`; underscores between digits are skipped, and
  digits are folded in groups of 19, so that a number too large is noticed at the end of a group.
-/

namespace SlotIndex.Decimal

open scoped CoreNat

/-- The digit of a value below ten. -/
def digit (n : Nat) : Char := Char.ofNat (48 + n)

/-- The shortest decimal text of a number. -/
def digits (n : Nat) : List Char :=
  if n < 10 then [digit n] else digits (n / 10) ++ [digit (n % 10)]
termination_by n

/-- The shortest decimal text of a number, as a string. -/
def text (n : Nat) : String := String.ofList (digits n)

/-- Decimal text of an integer, with a minus sign where it is negative. -/
def signed (n : Int) : String :=
  if n < 0 then "-" ++ text n.natAbs else text n.natAbs

/-! ## Heights and sizes -/

/-- Why a text is no 64-bit number. -/
inductive IntegerFault where
  | empty
  | badDigit
  | tooLarge
deriving DecidableEq

/-- The wording of a fault. -/
def IntegerFault.message : IntegerFault → String
  | .empty => "cannot parse integer from empty string"
  | .badDigit => "invalid digit found in string"
  | .tooLarge => "number too large to fit in target type"

/-- Read digits behind a number read so far; the first digit that is none or that leads to the
limit decides. -/
def readDigits (limit : Nat) : (soFar : Nat) → List Char → Except IntegerFault Nat
  | n, [] => .ok n
  | n, c :: rest =>
    if c.isDigit then
      let m := 10 * n + (c.toNat - 48)
      if m < limit then readDigits limit m rest else .error .tooLarge
    else .error .badDigit

/-- An optional plus sign and digits that write a number below the limit. -/
def readUnsigned (limit : Nat) : List Char → Except IntegerFault Nat
  | [] => .error .empty
  | ['+'] => .error .badDigit
  | '+' :: rest => readDigits limit 0 rest
  | text => readDigits limit 0 text

/-- An optional plus sign and digits that write a number below `2 ^ 64`. -/
def readUInt64 (text : List Char) : Except IntegerFault UInt64 :=
  UInt64.ofNat <$> readUnsigned UInt64.size text

/-! ## Words in decimal -/

/-- Why a text writes no word. -/
inductive NumeralFault where
  | badDigit (octet : UInt8)
  | tooLarge
deriving DecidableEq

/-- The wording of a fault. -/
def NumeralFault.message : NumeralFault → String
  | .badDigit octet => "invalid digit: " ++ String.singleton (Text.ofOctet octet)
  | .tooLarge => "the value is too large to fit the target type"

/-- A number read so far and the group of digits behind it that has not joined it yet. -/
structure Numeral where
  total : Nat
  group : Nat
  size : Nat

namespace Numeral

/-- Digits in a full group. -/
def groupSize : Nat := 19

/-- The number with the open group joined. -/
def close (s : Numeral) : Except NumeralFault Nat :=
  let n := s.total * 10 ^ s.size + s.group
  if n < 256 ^ (32 : Nat) then .ok n else .error .tooLarge

/-- Take in one digit; a group that becomes full joins the number. -/
def push (s : Numeral) (d : Nat) : Except NumeralFault Numeral :=
  let s : Numeral := ⟨s.total, 10 * s.group + d, s.size + 1⟩
  if s.size = groupSize then
    match s.close with
    | .ok n => .ok ⟨n, 0, 0⟩
    | .error e => .error e
  else .ok s

/-- Take in octets one by one. -/
def read (s : Numeral) : List UInt8 → Except NumeralFault Nat
  | [] => s.close
  | b :: rest =>
    if b = 95 then s.read rest
    else if 48 ≤ b && b ≤ 57 then
      match s.push (b.toNat - 48) with
      | .ok t => t.read rest
      | .error e => .error e
    else .error (.badDigit b)

end Numeral

/-- The number below `256 ^ 32` that a text writes; the empty text writes zero. -/
def readNumeral (text : List Char) : Except NumeralFault Nat :=
  Numeral.read ⟨0, 0, 0⟩ (Utf8.encode text)

end SlotIndex.Decimal
