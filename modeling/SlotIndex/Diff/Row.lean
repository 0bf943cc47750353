import SlotIndex.Diff

/-!
# Rows of a diff file

One line of a file of diffs holds five fields with commas between them: the address, the block hash,
the height, the storage key and the storage value. Hexadecimal fields may have any case, a leading
`0x`, blanks at their ends and any number of digits up to their width.

* `Diff.ofRow`: the diff of a list of fields, or the error of the first faulty field.
* `Diff.splitRow`: the fields of a line.
-/

namespace SlotIndex

/-- The bytes of a hexadecimal field, padded on the left to a width. A missing leading digit counts
as zero. -/
def paddedField (field : String) (width : Nat) (written : String) :
    Except StorageError (List UInt8) :=
  let text := Text.trim written.toList
  let digits := (afterHexMark? text).getD text
  let even := if (Utf8.encode digits).length % 2 = 1 then '0' :: digits else digits
  match Hex.decode even with
  | .error fault => .error (.invalidRowField field fault.message)
  | .ok bytes =>
    if bytes.length ≤ width then .ok (List.replicate (width - bytes.length) 0 ++ bytes)
    else .error (.invalidRowField field s!"{bytes.length} bytes is longer than {width}")

/-- A field that holds a word. -/
def wordField (field written : String) : Except StorageError Word :=
  Word.ofBytes <$> paddedField field 32 written

/-- A field that holds an address. -/
def addressField (field written : String) : Except StorageError Address :=
  Address.ofBytes <$> paddedField field 20 written

/-- A field that holds a height. -/
def heightField (field written : String) : Except StorageError UInt64 :=
  (Decimal.readUInt64 (Text.trim written.toList)).mapError fun fault =>
    .invalidRowField field fault.message

/-- The diff of a row. -/
def Diff.ofRow : List String → Except StorageError Diff
  | [address, blockHash, height, key, value] => do
    let address ← addressField "address" address
    let blockHash ← wordField "block_hash" blockHash
    let height ← heightField "block_height" height
    let key ← wordField "storage_key" key
    let value ← wordField "storage_value" value
    return ⟨address.hash, blockHash, height, key, value⟩
  | row => .error (.rowMalformed row.length)

/-- The parts of a text between commas. -/
def splitAtCommas (text : List Char) : List (List Char) :=
  text.foldr (fun c parts =>
    if c = ',' then [] :: parts
    else
      match parts with
      | [] => [[c]]
      | part :: rest => (c :: part) :: rest) [[]]

/-- The fields of a line. -/
def Diff.splitRow (line : List Char) : List String :=
  (splitAtCommas line).map String.ofList

end SlotIndex
