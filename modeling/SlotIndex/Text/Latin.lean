/-!
# Octets shown as characters

Error texts show an octet of a faulty text as the character with that code.

* `ofOctet`: the character with the code of an octet.
-/

namespace SlotIndex.Text

/-- The character whose code is the octet. -/
def ofOctet (b : UInt8) : Char := Char.ofNat b.toNat

end SlotIndex.Text
