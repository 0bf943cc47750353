import SlotIndex.Word

/-!
# Recursive length prefix

The binary form of nested lists of byte strings. Every value begins with a header that says whether
a string or a list follows and how many bytes its payload has; each value has exactly one form.

* `writeString`, `writeNumber`, `writeList`: the form of a string, a number below `2 ^ 64` and a list.
* `readHeader` and the readers `readString`, `readNumber`, `readWord`, `readRecord`, `readList`: a
  reader takes the bytes ahead and yields a value with the bytes behind it, or the `Fault`.
* `readExactly`: the value that all the bytes ahead form.

A record is a list whose items are its fields. Its fields are read from all bytes ahead, and the
number of bytes that they took is compared with the length its header declares afterwards.
-/

namespace SlotIndex.Rlp

/-- Why bytes are not the form of a value. -/
inductive Fault where
  | overflow
  | leadingZero
  | inputTooShort
  | nonCanonicalSingleByte
  | nonCanonicalSize
  | unexpectedLength
  | unexpectedString
  | unexpectedList
  /-- The fields of a record took `got` bytes and its header declares `expected`. -/
  | lengthMismatch (expected got : Nat)
deriving DecidableEq

/-- The wording of a fault. -/
def Fault.message : Fault → String
  | .overflow => "overflow"
  | .leadingZero => "leading zero"
  | .inputTooShort => "input too short"
  | .nonCanonicalSingleByte => "non-canonical single byte"
  | .nonCanonicalSize => "non-canonical size"
  | .unexpectedLength => "unexpected length"
  | .unexpectedString => "unexpected string"
  | .unexpectedList => "unexpected list"
  | .lengthMismatch expected got => s!"unexpected list length (got {got}, expected {expected})"

/-! ## Writing -/

/-- The shortest list of bytes that writes a number below `2 ^ 64`. -/
def numberBytes (n : Nat) : List UInt8 :=
  BigEndian.significant (BigEndian.ofNat 8 n)

/-- The header of a payload: one byte for fewer than 56 bytes, else the length of the length and
the length. -/
def writeHeader (isList : Bool) (length : Nat) : List UInt8 :=
  let base := if isList then 0xC0 else 0x80
  if length < 56 then [UInt8.ofNat (base + length)]
  else
    let bytes := numberBytes length
    UInt8.ofNat (base + 55 + bytes.length) :: bytes

/-- The form of a byte string: a single byte below `0x80` is its own form. -/
def writeString : List UInt8 → List UInt8
  | [b] => if b < 0x80 then [b] else writeHeader false 1 ++ [b]
  | payload => writeHeader false payload.length ++ payload

/-- The form of a number below `2 ^ 64`: that of the string of its significant bytes. -/
def writeNumber (n : Nat) : List UInt8 :=
  writeString (numberBytes n)

/-- The form of a list, from the forms of its items put together. -/
def writeList (payload : List UInt8) : List UInt8 :=
  writeHeader true payload.length ++ payload

/-! ## Reading -/

/-- What stands at the front of the bytes ahead: the kind of a value and the length of its
payload. -/
structure Header where
  isList : Bool
  length : Nat
deriving DecidableEq

/-- A reader takes the bytes ahead and yields a value and the bytes behind it. -/
abbrev Reader (α : Type) := List UInt8 → Except Fault (α × List UInt8)

/-- A header, if its whole payload lies ahead. -/
def Header.check (h : Header) (rest : List UInt8) : Except Fault (Header × List UInt8) :=
  if rest.length < h.length then .error .inputTooShort else .ok (h, rest)

/-- A header whose length is written in `size` bytes of its own. -/
def readLongHeader (isList : Bool) (size : Nat) (rest : List UInt8) :
    Except Fault (Header × List UInt8) :=
  if rest.length < size then .error .inputTooShort
  else if rest.head? = some 0 then .error .leadingZero
  else
    let length := BigEndian.toNat (rest.take size)
    if length < 56 then .error .nonCanonicalSize
    else Header.check ⟨isList, length⟩ (rest.drop size)

/-- The header at the front. A byte below `0x80` is a string of its own and stays ahead. -/
def readHeader : Reader Header
  | [] => .error .inputTooShort
  | b :: rest =>
    if b < 0x80 then .ok (⟨false, 1⟩, b :: rest)
    else if b < 0xB8 then
      if b = 0x81 then
        match rest with
        | [] => .error .inputTooShort
        | c :: _ =>
          if c < 0x80 then .error .nonCanonicalSingleByte else .ok (⟨false, 1⟩, rest)
      else Header.check ⟨false, b.toNat - 0x80⟩ rest
    else if b < 0xC0 then readLongHeader false (b.toNat - 0xB7) rest
    else if b < 0xF8 then Header.check ⟨true, b.toNat - 0xC0⟩ rest
    else readLongHeader true (b.toNat - 0xF7) rest

/-- The payload of a string. -/
def readString : Reader (List UInt8) := fun input =>
  match readHeader input with
  | .error e => .error e
  | .ok (h, rest) =>
    if h.isList then .error .unexpectedList
    else .ok (rest.take h.length, rest.drop h.length)

/-- The payload of a list. -/
def readPayload : Reader (List UInt8) := fun input =>
  match readHeader input with
  | .error e => .error e
  | .ok (h, rest) =>
    if h.isList then .ok (rest.take h.length, rest.drop h.length)
    else .error .unexpectedString

/-- A number below `2 ^ 64`, written without leading zero bytes. -/
def readNumber : Reader UInt64 := fun input =>
  match readString input with
  | .error e => .error e
  | .ok (payload, rest) =>
    if 8 < payload.length then .error .overflow
    else if payload.head? = some 0 then .error .leadingZero
    else .ok (UInt64.ofNat (BigEndian.toNat payload), rest)

/-- A string of exactly 32 bytes. -/
def readWord : Reader Word := fun input =>
  match readString input with
  | .error e => .error e
  | .ok (payload, rest) =>
    if payload.length = 32 then .ok (Word.ofBytes payload, rest) else .error .unexpectedLength

/-- A record, from a reader of its fields. -/
def readRecord {α : Type} (fields : Reader α) : Reader α := fun input =>
  match readHeader input with
  | .error e => .error e
  | .ok (h, rest) =>
    if h.isList then
      match fields rest with
      | .error e => .error e
      | .ok (a, behind) =>
        let taken := rest.length - behind.length
        if taken = h.length then .ok (a, behind) else .error (.lengthMismatch h.length taken)
    else .error .unexpectedString

/-- Items one after the other until nothing is left. Every item takes at least one byte, so that as
many steps as there are bytes are enough. -/
def readItems {α : Type} (item : Reader α) : (steps : Nat) → List UInt8 → Except Fault (List α)
  | _, [] => .ok []
  | 0, _ :: _ => .error .inputTooShort
  | steps + 1, input =>
    match item input with
    | .error e => .error e
    | .ok (a, rest) =>
      match readItems item steps rest with
      | .error e => .error e
      | .ok as => .ok (a :: as)

/-- A list of items, which is bounded by its own payload. -/
def readList {α : Type} (item : Reader α) : Reader (List α) := fun input =>
  match readPayload input with
  | .error e => .error e
  | .ok (payload, rest) =>
    match readItems item payload.length payload with
    | .error e => .error e
    | .ok as => .ok (as, rest)

/-- The value that all the bytes form. -/
def readExactly {α : Type} (reader : Reader α) (input : List UInt8) : Except Fault α :=
  match reader input with
  | .error e => .error e
  | .ok (a, []) => .ok a
  | .ok (_, _ :: _) => .error .unexpectedLength

end SlotIndex.Rlp
