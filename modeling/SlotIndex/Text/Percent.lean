import SlotIndex.Text.Hex

/-!
# Percent-encoded text

In an address an octet may be written as a percent sign and two hexadecimal digits.

* `Percent.decode`: the octets of a text. A percent sign without two digits stands for itself.
* `Percent.decodeText`: the same as text, if the octets are text.
-/

namespace SlotIndex.Percent

/-- Octets with every percent sign and the two digits behind it replaced by what they write. -/
def decodeOctets : List UInt8 → List UInt8
  | 37 :: high :: low :: rest =>
    match Hex.value? high, Hex.value? low with
    | some h, some l => UInt8.ofNat (16 * h + l) :: decodeOctets rest
    | _, _ => 37 :: decodeOctets (high :: low :: rest)
  | b :: rest => b :: decodeOctets rest
  | [] => []

/-- The octets that a text writes. -/
def decode (text : List Char) : List UInt8 := decodeOctets (Utf8.encode text)

/-- The text that a text writes, if its octets are one. -/
def decodeText (text : List Char) : Option (List Char) := (Utf8.decode (decode text)).toOption

end SlotIndex.Percent
