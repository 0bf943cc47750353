import SlotIndex.Keccak
import SlotIndex.Text.Blank
import SlotIndex.Text.Decimal
import SlotIndex.Text.Hex

/-!
# Words and addresses as text

* `Word.text`: `0x` and 64 lower-case digits.
* `Word.parse`: a slot number or a mapping key as it is written in a configuration, either `0x` and
  hexadecimal digits or a decimal number.
* `Address.text`, `Address.checksum`: 40 digits, in lower case or with the case that carries the
  checksum.
-/

namespace SlotIndex

/-- The word as `0x` and 64 lower-case digits. -/
def Word.text (w : Word) : String := Hex.prefixed w.bytes

/-- Why a text names no word. The text is the one without the blanks at its ends. -/
inductive WordFault where
  | badHex (text : String) (fault : Hex.Fault)
  | tooLong (text : String)
  | badInteger (text : String) (fault : Decimal.NumeralFault)
deriving DecidableEq

/-- The wording of a fault. -/
def WordFault.message : WordFault → String
  | .badHex text fault => s!"invalid hex '{text}': {fault.message}"
  | .tooLong text => s!"'{text}' is longer than 32 bytes"
  | .badInteger text fault => s!"invalid integer '{text}': {fault.message}"

/-- The text behind `0x` or `0X`. -/
def afterHexMark? : List Char → Option (List Char)
  | '0' :: 'x' :: rest => some rest
  | '0' :: 'X' :: rest => some rest
  | _ => none

/-- The word that a text names: hexadecimal digits behind `0x`, at most 64, or a decimal number.
Blanks at the ends do not count. -/
def Word.parse (written : String) : Except WordFault Word :=
  let text := Text.trim written.toList
  match afterHexMark? text with
  | some digits =>
    match Hex.decode digits with
    | .error fault => .error (.badHex (String.ofList text) fault)
    | .ok bytes =>
      if bytes.length ≤ 32 then .ok (Word.ofBytes bytes)
      else .error (.tooLong (String.ofList text))
  | none =>
    match Decimal.readNumeral text with
    | .error fault => .error (.badInteger (String.ofList text) fault)
    | .ok n => .ok (Word.ofNat n)

namespace Address

/-- The address as `0x` and 40 lower-case digits. -/
def text (a : Address) : String := Hex.prefixed a.bytes

/-- The address with the checksum that the case of its letters carries: a letter is in upper case
where the hash of the lower-case digits has a value of at least 8. -/
def checksum (a : Address) : String :=
  let digits := Hex.encode a.bytes
  let marks := Hex.nibbles (keccak256 (Utf8.encode digits)).bytes
  String.ofList ('0' :: 'x' ::
    List.zipWith (fun c n => if n < 8 then c else c.toUpper) digits marks)

/-- The address that 40 hexadecimal digits of either case write, with or without `0x`. -/
def parse (text : String) : Except Hex.Fault Address :=
  ofBytes <$> Hex.decodeExactly 20 text.toList

end Address

end SlotIndex
