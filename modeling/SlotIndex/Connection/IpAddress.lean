import SlotIndex.Text.Decimal

/-!
# Numeric network addresses

The texts that write a network address by number: four decimal octets with dots between them, or
eight groups of hexadecimal digits with colons between them. The last two groups may be written as
four octets, and one run of groups that are zero may be left out between two colons.

* `isIpAddress`.
-/

namespace SlotIndex

/-- The parts of a text between the occurrences of a character. -/
def partsBetween (separator : Char) (text : List Char) : List (List Char) :=
  text.splitOnP (· = separator)

/-- A decimal octet: at most three digits, without leading zeros. -/
def isDecimalOctet (text : List Char) : Bool :=
  text.all Char.isDigit && (Decimal.readUnsigned 256 text).isOk
    && text = Decimal.digits ((Decimal.readUnsigned 256 text).toOption.getD 0)

/-- Four decimal octets with dots between them. -/
def isDottedAddress (text : List Char) : Bool :=
  let octets := partsBetween '.' text
  octets.length = 4 && octets.all isDecimalOctet

/-- A hexadecimal digit. -/
def isHexDigit (c : Char) : Bool :=
  c.isDigit || ('a' ≤ c && c ≤ 'f') || ('A' ≤ c && c ≤ 'F')

/-- One to four hexadecimal digits. -/
def isGroup (text : List Char) : Bool :=
  0 < text.length && text.length ≤ 4 && text.all isHexDigit

/-- The number of groups in groups with colons between them. The last part may be four octets, which
count as two groups. -/
def groupCount (octetsAllowed : Bool) (text : List Char) : Option Nat :=
  if text = [] then some 0
  else
    let parts := partsBetween ':' text
    let count (front : List (List Char)) (n : Nat) : Option Nat :=
      if front.all isGroup then some (front.length + n) else none
    match parts.getLast? with
    | none => some 0
    | some last =>
      if isGroup last then count parts.dropLast 1
      else if octetsAllowed && isDottedAddress last then count parts.dropLast 2
      else none

/-- A text in front of the first two colons that stand together and the text behind them. -/
def splitAtGap : List Char → Option (List Char × List Char)
  | ':' :: ':' :: rest => some ([], rest)
  | c :: rest => (splitAtGap rest).map fun r => (c :: r.1, r.2)
  | [] => none

/-- Eight groups with colons between them, or fewer with a gap. -/
def isColonAddress (text : List Char) : Bool :=
  match splitAtGap text with
  | none => groupCount true text = some 8
  | some (front, back) =>
    match groupCount false front, groupCount true back with
    | some m, some n => m + n ≤ 7
    | _, _ => false

/-- Whether a text writes a network address by number. -/
def isIpAddress (text : List Char) : Bool := isDottedAddress text || isColonAddress text

end SlotIndex
