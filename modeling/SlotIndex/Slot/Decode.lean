import SlotIndex.Slot.Metadata

/-!
# Decoding

The text of a slot's value under its metadata. A plain value stands in the trailing bytes of the
word. The fields of a packed slot are cut from the low-order end: each takes the trailing bytes of
what the fields before it left.

* `fieldText?`: the text of right-aligned bytes under a type.
* `cutFields?`: the texts of packed fields.
* `Metadata.decode`: the text of a word; `isSome_decode?` says that it always exists.
-/

namespace SlotIndex

/-- The last bytes of a list. -/
def trailing (n : Nat) (bytes : List UInt8) : List UInt8 :=
  bytes.drop (bytes.length - n)

/-- The text of right-aligned bytes: a number in decimal, an address with its checksum, a word in
hexadecimal. There is none for a packed slot or with too few bytes. -/
def fieldText? (type : ValueType) (bytes : List UInt8) : Option String :=
  if bytes.length < type.width then none
  else
    match type with
    | .packedSlot => none
    | .address => some (Address.ofBytes (trailing 20 bytes)).checksum
    | .bytes32 => some (Hex.prefixed bytes)
    | type => some (Decimal.text (BigEndian.toNat (trailing type.width bytes)))

/-- The texts of packed fields, each cut from the end of what is left. -/
def cutFields? : List Field → (left : List UInt8) → Option (List String)
  | [], _ => some []
  | f :: rest, left =>
    match fieldText? f.type (trailing f.type.width left),
      cutFields? rest (left.take (left.length - f.type.width)) with
    | some text, some texts => some (text :: texts)
    | _, _ => none

/-- The decoded value of a slot. -/
inductive DecodedValue where
  | single (text : String)
  /-- The texts of packed fields with their positions, in the order of the positions. -/
  | packed (fields : List (Nat × String))
deriving DecidableEq

/-- The texts of fields with their positions. -/
def DecodedValue.ofTexts (texts : List String) : DecodedValue :=
  .packed (texts.zipIdx.map fun e => (e.2, e.1))

/-- The decoded value of a word under a shape, if the shape can be decoded. -/
def Shape.decode? (shape : Shape) (raw : Word) : Option DecodedValue :=
  match shape with
  | .plain type => (fieldText? type raw.bytes).map .single
  | .packed fields => (cutFields? fields raw.bytes).map .ofTexts

@[simp] theorem length_trailing (n : Nat) (bytes : List UInt8) :
    (trailing n bytes).length = min n bytes.length := by
  simp only [trailing, List.length_drop]; omega

theorem isSome_fieldText? {type : ValueType} (h : type ≠ .packedSlot) {bytes : List UInt8}
    (hl : type.width ≤ bytes.length) : (fieldText? type bytes).isSome := by
  have hn : ¬ bytes.length < type.width := by omega
  cases type with
  | packedSlot => exact absurd rfl h
  | _ => simp [fieldText?, hn]

theorem isSome_cutFields? {fields : List Field} (hp : ∀ f ∈ fields, f.type ≠ .packedSlot)
    {left : List UInt8} (hl : totalWidth fields ≤ left.length) :
    (cutFields? fields left).isSome := by
  induction fields generalizing left with
  | nil => rfl
  | cons f rest ih =>
    have hw : f.type.width + totalWidth rest ≤ left.length := by
      simpa [totalWidth] using hl
    have ht : (fieldText? f.type (trailing f.type.width left)).isSome :=
      isSome_fieldText? (hp f (by simp)) (by rw [length_trailing]; omega)
    have hr : (cutFields? rest (left.take (left.length - f.type.width))).isSome :=
      ih (fun g hg => hp g (by simp [hg])) (by rw [List.length_take]; omega)
    obtain ⟨text, ht⟩ := Option.isSome_iff_exists.1 ht
    obtain ⟨texts, hr⟩ := Option.isSome_iff_exists.1 hr
    simp [cutFields?, ht, hr]

theorem isSome_decode? {shape : Shape} (h : shape.Valid) (raw : Word) :
    (shape.decode? raw).isSome := by
  cases shape with
  | plain type =>
    have : (fieldText? type raw.bytes).isSome :=
      isSome_fieldText? h (by simpa using type.width_le)
    simpa [Shape.decode?] using this
  | packed fields =>
    have : (cutFields? fields raw.bytes).isSome :=
      isSome_cutFields? h.2.1 (by simpa using h.2.2)
    simpa [Shape.decode?] using this

/-- The decoded value of a word. -/
def Metadata.decode (m : Metadata) (raw : Word) : DecodedValue :=
  (m.shape.decode? raw).get (isSome_decode? m.valid raw)

end SlotIndex
