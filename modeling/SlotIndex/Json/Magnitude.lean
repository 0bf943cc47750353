import SlotIndex.CoreNat

/-!
# Magnitude of a spelt number

Whether a spelt number can be held by a double. The spelling is a JSON number: an optional minus
sign, digits, an optional fraction and an optional exponent. It is read as a significand of at most
64 bits times a power of ten: digits that no longer fit are dropped, and those in front of the point
still count in the power. Significand and power are rounded to doubles before they are multiplied,
so that a number just below the largest double may be refused.

* `Magnitude.ofDigits`: the number that digits write.
* `Magnitude.gather`: the significand of digits.
* `Magnitude.isFinite`.
-/

namespace SlotIndex.Magnitude

open scoped CoreNat

/-- The number that decimal digits write. -/
def ofDigits (ds : List Char) : Nat :=
  ds.foldl (fun n c => 10 * n + (c.toNat - 48)) 0

/-- Digits behind a significand as long as it stays below `2 ^ 64`, with the number of digits that
are left. -/
def gather : (significand : Nat) → List Char → Nat × Nat
  | s, [] => (s, 0)
  | s, d :: ds =>
    let next := 10 * s + (d.toNat - 48)
    if next < UInt64.size then gather next ds else (s, ds.length + 1)

/-- The nearest number with 53 significant binary digits; of two the one with an even last digit. -/
def nearest (n : Nat) : Nat :=
  let unit := 2 ^ (n.log2 - 52)
  let below := n / unit
  let rest := n % unit
  let up := unit < 2 * rest ∨ (unit = 2 * rest ∧ below % 2 = 1)
  unit * (if up then below + 1 else below)

/-- Magnitudes from here on round to infinity. -/
def bound : Nat := 2 ^ (1024 : Nat) - 2 ^ (970 : Nat)

/-- The largest power of ten that is a double. -/
def maxPower : Int := 308

/-- The largest exponent that may be written. -/
def maxExponent : Nat := 2147483647

/-- The digits of a spelling without its sign: whole part, fraction, and what follows. -/
def split (cs : List Char) : List Char × List Char × List Char :=
  let whole := cs.takeWhile Char.isDigit
  match cs.dropWhile Char.isDigit with
  | '.' :: rest => (whole, rest.takeWhile Char.isDigit, rest.dropWhile Char.isDigit)
  | rest => (whole, [], rest)

/-- The exponent behind its letter. -/
def exponent : List Char → Int
  | _ :: '-' :: ds => -(ofDigits ds : Int)
  | _ :: '+' :: ds => ofDigits ds
  | _ :: ds => ofDigits ds
  | [] => 0

/-- Whether a significand times a power of ten is a double. -/
def isBelow (significand : Nat) (power : Int) : Bool :=
  power < 0 || (power ≤ maxPower && nearest significand * nearest (10 ^ power.toNat) < bound)

/-- Whether a spelt number can be held by a double. -/
def isFinite (spelling : String) : Bool :=
  let cs := spelling.toList
  let (whole, fraction, rest) := split (if cs.head? = some '-' then cs.tail else cs)
  let (s, dropped) := gather 0 whole
  let (s, unused) := gather s fraction
  let written := exponent rest
  s = 0 || (written ≤ maxExponent
    && isBelow s (written + dropped + unused - fraction.length))

end SlotIndex.Magnitude
