import SlotIndex.Proofs.Slot.Declared
import SlotIndex.Proofs.Text.Decimal
import SlotIndex.Proofs.Word.Checksum
import SlotIndex.Slot.Decode

/-!
# Decoding as arithmetic

A word is a number. The fields of a packed slot are its digits in bases that the widths of the fields give,
the low-order one first, and each is written as its type says.

* `TextOf`: the texts of a number under a type.
* `ValueType.text`, `textOf_text`: the one that decoding gives.
* `fieldTexts`, `getElem?_fieldTexts`: the fields of a number.
* `fieldText?_eq`, `cutFields?_eq`: decoding bytes is decoding the number that they write.
* `Shape.value`, `decode_eq`, `decode_plain`, `decode_packed`: the decoded value of a word.
* **`decode_is_arithmetic`**.
-/

namespace SlotIndex

open scoped CoreNat

/-! ## Texts of numbers -/

/-- The types of unsigned numbers. -/
def ValueType.IsUnsigned (type : ValueType) : Prop :=
  type ≠ .address ∧ type ≠ .bytes32 ∧ type ≠ .packedSlot

instance (type : ValueType) : Decidable type.IsUnsigned :=
  inferInstanceAs (Decidable (type ≠ .address ∧ type ≠ .bytes32 ∧ type ≠ .packedSlot))

/-- The text of a number as a value of a type: decimal without zeros in front for an unsigned number, 40
digits with a checksum for an address, and 64 digits in lower case for a word. -/
inductive TextOf : ValueType → Nat → String → Prop where
  | unsigned {type : ValueType} {n : Nat} {text : String} (htype : type.IsUnsigned)
      (h : Decimal.Canonical text.toList n) : TextOf type n text
  | address {n : Nat} {text : String} (h : IsChecksummed n text) : TextOf .address n text
  | word {n : Nat} {text : String} {digits : List Char} {values : List Nat}
      (htext : text.toList = '0' :: 'x' :: digits) (hdigits : Hex.Digits digits values)
      (hlength : digits.length = 64) (hnumber : Hex.number values = n)
      (hlower : ∀ c ∈ digits, c.isUpper = false) : TextOf .bytes32 n text

/-- The text of a number under a type. -/
def ValueType.text (type : ValueType) (n : Nat) : String :=
  match type with
  | .address => (Address.ofBytes (BigEndian.ofNat 20 n)).checksum
  | .bytes32 => Hex.prefixed (BigEndian.ofNat 32 n)
  | _ => Decimal.text n

theorem not_isUpper_of_encode (bytes : List UInt8) : ∀ c ∈ Hex.encode bytes, c.isUpper = false := by
  have hall : ∀ v : Fin 16, (Hex.digit v).isUpper = false := by decide
  rw [Hex.encode_eq_map]
  intro c hc
  obtain ⟨v, hv, rfl⟩ := List.mem_map.1 hc
  exact hall ⟨v, Hex.nibbles_lt bytes v hv⟩

theorem textOf_text {type : ValueType} (htype : type ≠ .packedSlot) {n : Nat}
    (hn : n < 256 ^ type.width) : TextOf type n (type.text n) := by
  have hunsigned (h : type.IsUnsigned) : TextOf type n (Decimal.text n) := by
    refine .unsigned h ?_
    rw [Decimal.text, String.toList_ofList]
    exact Decimal.canonical_digits n
  cases type with
  | packedSlot => exact absurd rfl htype
  | address =>
    have hnumber : (Address.ofBytes (BigEndian.ofNat 20 n)).toNat = n := by
      change BigEndian.toNat (BigEndian.ofNat 20 n) % 256 ^ (20 : Nat) = n
      rw [BigEndian.toNat_ofNat, Nat.mod_mod]
      exact Nat.mod_eq_of_lt hn
    have hchecksum := Address.isChecksummed_checksum (Address.ofBytes (BigEndian.ofNat 20 n))
    rw [hnumber] at hchecksum
    exact .address hchecksum
  | bytes32 =>
    refine .word (String.toList_ofList ..) (Hex.digits_encode _) ?_ ?_ (not_isUpper_of_encode _)
    · rw [Hex.length_encode_bytes, BigEndian.length_ofNat]
    · rw [Hex.number_nibbles, BigEndian.toNat_ofNat]
      exact Nat.mod_eq_of_lt hn
  | _ => exact hunsigned (by decide)

/-! ## Fields of a number -/

/-- The texts of fields that are cut from a number, from its low-order end. -/
def fieldTexts : List Field → Nat → List String
  | [], _ => []
  | f :: rest, n => f.type.text (n % 256 ^ f.type.width) :: fieldTexts rest (n / 256 ^ f.type.width)

theorem length_fieldTexts (fields : List Field) (n : Nat) :
    (fieldTexts fields n).length = fields.length := by
  induction fields generalizing n with
  | nil => rfl
  | cons f rest ih => rw [fieldTexts, List.length_cons, List.length_cons, ih]

/-- A field stands behind the bytes of the fields in front of it. -/
theorem getElem?_fieldTexts {fields : List Field} {i : Nat} {f : Field} (h : fields[i]? = some f)
    (n : Nat) : (fieldTexts fields n)[i]? =
      some (f.type.text (n / 256 ^ totalWidth (fields.take i) % 256 ^ f.type.width)) := by
  induction fields generalizing i n with
  | nil => simp at h
  | cons g rest ih =>
    cases i with
    | zero =>
      obtain rfl : g = f := by simpa using h
      rw [List.take_zero, totalWidth, Nat.pow_zero, Nat.div_one]
      rfl
    | succ i =>
      rw [List.getElem?_cons_succ] at h
      rw [fieldTexts, List.getElem?_cons_succ, ih h, Nat.div_div_eq_div_mul, ← Nat.pow_add]
      rfl

theorem totalWidth_append (front back : List Field) :
    totalWidth (front ++ back) = totalWidth front + totalWidth back := by
  induction front with
  | nil => exact (Nat.zero_add _).symm
  | cons f front ih => rw [List.cons_append, totalWidth, totalWidth, ih, Nat.add_assoc]

/-- A field fits into what the fields in front of it leave. -/
theorem totalWidth_take_add_le {fields : List Field} {i : Nat} {f : Field} (h : fields[i]? = some f) :
    totalWidth (fields.take i) + f.type.width ≤ totalWidth fields := by
  obtain ⟨hi, rfl⟩ := List.getElem?_eq_some_iff.1 h
  have hsplit : fields = fields.take i ++ fields[i] :: fields.drop (i + 1) := by simp
  calc totalWidth (fields.take i) + fields[i].type.width
      ≤ totalWidth (fields.take i) + totalWidth (fields[i] :: fields.drop (i + 1)) := by
        rw [totalWidth]
        omega
    _ = totalWidth fields := by rw [← totalWidth_append, ← hsplit]

/-! ## Decoding bytes -/

theorem toNat_trailing (w : Nat) (bytes : List UInt8) :
    BigEndian.toNat (trailing w bytes) = BigEndian.toNat bytes % 256 ^ w :=
  (BigEndian.toNat_split w bytes).1

/-- The text of bytes is that of the number in the last of them. A word is written with all its bytes. -/
theorem fieldText?_eq {type : ValueType} (htype : type ≠ .packedSlot) {bytes : List UInt8}
    (hle : type.width ≤ bytes.length) (hword : bytes.length ≤ 32) :
    fieldText? type bytes = some (type.text (BigEndian.toNat bytes % 256 ^ type.width)) := by
  have henough : ¬ bytes.length < type.width := Nat.not_lt.2 hle
  cases type with
  | packedSlot => exact absurd rfl htype
  | address =>
    have haddress : Address.ofBytes (trailing 20 bytes) =
        Address.ofBytes (BigEndian.ofNat 20 (BigEndian.toNat bytes % 256 ^ (20 : Nat))) := by
      refine Address.ext ?_
      change BigEndian.toNat _ % _ = BigEndian.toNat _ % _
      rw [toNat_trailing, BigEndian.toNat_ofNat, Nat.mod_mod, Nat.mod_mod]
    rw [fieldText?, if_neg henough]
    exact congrArg (fun a : Address => some a.checksum) haddress
  | bytes32 =>
    have hlength : bytes.length = 32 := Nat.le_antisymm hword hle
    have hbytes : BigEndian.ofNat 32 (BigEndian.toNat bytes % 256 ^ (32 : Nat)) = bytes := by
      rw [← hlength, Nat.mod_eq_of_lt (BigEndian.toNat_lt bytes), BigEndian.ofNat_toNat]
    rw [fieldText?, if_neg henough]
    exact congrArg (fun bytes => some (Hex.prefixed bytes)) hbytes.symm
  | _ =>
    simp only [fieldText?, if_neg henough, toNat_trailing]
    rfl

/-- Cutting fields from bytes is cutting them from the number that the bytes write. -/
theorem cutFields?_eq {fields : List Field} (hnested : ∀ f ∈ fields, f.type ≠ .packedSlot)
    {left : List UInt8} (hle : totalWidth fields ≤ left.length) :
    cutFields? fields left = some (fieldTexts fields (BigEndian.toNat left)) := by
  induction fields generalizing left with
  | nil => rfl
  | cons f rest ih =>
    rw [totalWidth] at hle
    obtain ⟨hf, hrest⟩ := List.forall_mem_cons.1 hnested
    have hlength : (trailing f.type.width left).length = f.type.width := by
      rw [length_trailing]
      omega
    have hword : (trailing f.type.width left).length ≤ 32 := by
      rw [hlength]
      exact f.type.width_le
    have htext : fieldText? f.type (trailing f.type.width left) =
        some (f.type.text (BigEndian.toNat left % 256 ^ f.type.width)) := by
      rw [fieldText?_eq hf (Nat.le_of_eq hlength.symm) hword, toNat_trailing, Nat.mod_mod]
    have hleft : totalWidth rest ≤ (left.take (left.length - f.type.width)).length := by
      rw [List.length_take]
      omega
    have htexts := ih hrest hleft
    rw [(BigEndian.toNat_split _ left).2] at htexts
    simp only [cutFields?, htext, htexts]
    rfl

/-- The decoded value of a number under a shape. -/
def Shape.value (shape : Shape) (n : Nat) : DecodedValue :=
  match shape with
  | .plain type => .single (type.text (n % 256 ^ type.width))
  | .packed fields => .ofTexts (fieldTexts fields n)

theorem Shape.decode?_eq {shape : Shape} (h : shape.Valid) (raw : Word) :
    shape.decode? raw = some (shape.value raw.toNat) := by
  cases shape with
  | plain type =>
    rw [decode?, fieldText?_eq h (by simpa using type.width_le) (by simp), Word.toNat_bytes]
    rfl
  | packed fields =>
    rw [decode?, cutFields?_eq h.2.1 (by simpa using h.2.2), Word.toNat_bytes]
    rfl

theorem Metadata.decode_eq (m : Metadata) (raw : Word) : m.decode raw = m.shape.value raw.toNat :=
  Option.some.inj ((Option.some_get _).trans (Shape.decode?_eq m.valid raw))

/-! ## Words -/

theorem getElem?_ofTexts {texts : List String} {i : Nat} {text : String} (h : texts[i]? = some text) :
    (texts.zipIdx.map fun e => (e.2, e.1))[i]? = some (i, text) := by
  rw [List.getElem?_map, List.getElem?_zipIdx, h]
  simp

theorem Metadata.decode_plain {m : Metadata} {type : ValueType} (h : m.shape = .plain type) (raw : Word) :
    type ≠ .packedSlot ∧
      ∃ text, m.decode raw = .single text ∧ TextOf type (raw.toNat % 256 ^ type.width) text := by
  have htype : type ≠ .packedSlot := by
    have hvalid := m.valid
    rwa [h] at hvalid
  rw [m.decode_eq, h]
  exact ⟨htype, _, rfl, textOf_text htype (Nat.mod_lt _ (Nat.pow_pos (by decide)))⟩

theorem Metadata.decode_packed {m : Metadata} {fields : List Field} (h : m.shape = .packed fields)
    (raw : Word) :
    ∃ texts : List (Nat × String), m.decode raw = .packed texts ∧
      texts.map Prod.fst = List.range fields.length ∧
      ∀ i f, fields[i]? = some f →
        let offset := totalWidth (fields.take i)
        f.type ≠ .packedSlot ∧ offset + f.type.width ≤ 32 ∧
        ∃ text, texts[i]? = some (i, text) ∧
          TextOf f.type (raw.toNat / 256 ^ offset % 256 ^ f.type.width) text := by
  obtain ⟨-, hnested, hfits⟩ : (Shape.packed fields).Valid := h ▸ m.valid
  rw [m.decode_eq, h]
  refine ⟨_, rfl, ?_, fun i f hf => ?_⟩
  · rw [Metadata.map_fst_positions, length_fieldTexts]
  · have htype := hnested f (List.mem_of_getElem? hf)
    exact ⟨htype, Nat.le_trans (totalWidth_take_add_le hf) hfits, _,
      getElem?_ofTexts (getElem?_fieldTexts hf _),
      textOf_text htype (Nat.mod_lt _ (Nat.pow_pos (by decide)))⟩

/-- **Decoding is arithmetic and never fails.** A word is read as a number. Under a plain type its value is
the text of the number modulo the width of the type. Of a packed slot each field, and no other position, has
the text of the digits of the number behind the widths of the fields in front of it; there are always enough
bytes left for it, and its type has texts. -/
theorem decode_is_arithmetic (m : Metadata) (raw : Word) :
    m.shape.decode? raw = some (m.decode raw) ∧
    (∀ type, m.shape = .plain type → type ≠ .packedSlot ∧
      ∃ text, m.decode raw = .single text ∧ TextOf type (raw.toNat % 256 ^ type.width) text) ∧
    ∀ fields, m.shape = .packed fields →
      ∃ texts : List (Nat × String), m.decode raw = .packed texts ∧
        texts.map Prod.fst = List.range fields.length ∧
        ∀ i f, fields[i]? = some f →
          let offset := totalWidth (fields.take i)
          f.type ≠ .packedSlot ∧ offset + f.type.width ≤ 32 ∧
          ∃ text, texts[i]? = some (i, text) ∧
            TextOf f.type (raw.toNat / 256 ^ offset % 256 ^ f.type.width) text := by
  refine ⟨?_, fun _ h => Metadata.decode_plain h raw, fun _ h => Metadata.decode_packed h raw⟩
  rw [m.decode_eq]
  exact Shape.decode?_eq m.valid raw

/-- Three fields of different widths. -/
def mixedSlot : Metadata :=
  ⟨"mixed", Table.empty, .packed [⟨"kind", .uint8⟩, ⟨"owner", .address⟩, ⟨"limit", .uint32⟩], by decide⟩

/-- A word with a number, an address and another number, from the low-order end. -/
def mixedWord : Word := Word.ofNat 0xffd8da6bf26964af9d7eed9e03e53415d37aa9604507

theorem decode_mixedSlot : mixedSlot.decode mixedWord =
    .packed [(0, "7"), (1, "0xd8dA6BF26964aF9D7eEd9e03E53415D37aA96045"), (2, "255")] := by
  decide +kernel

theorem decode_is_arithmetic_mixed :
    mixedSlot.shape = .packed mixedSlot.fields ∧ mixedSlot.fields[1]? = some ⟨"owner", .address⟩ ∧
      mixedSlot.decode mixedWord =
        .packed [(0, "7"), (1, "0xd8dA6BF26964aF9D7eEd9e03E53415D37aA96045"), (2, "255")] ∧
      TextOf .address 0xd8da6bf26964af9d7eed9e03e53415d37aa96045
        "0xd8dA6BF26964aF9D7eEd9e03E53415D37aA96045" := by
  have hfield : mixedSlot.fields[1]? = some ⟨"owner", .address⟩ := rfl
  obtain ⟨texts, htexts, -, hall⟩ := (decode_is_arithmetic mixedSlot mixedWord).2.2 _ rfl
  obtain ⟨-, -, text, htext, hof⟩ := hall 1 _ hfield
  rw [decode_mixedSlot] at htexts
  obtain rfl := DecodedValue.packed.inj htexts
  obtain rfl : "0xd8dA6BF26964aF9D7eEd9e03E53415D37aA96045" = text := by simpa using htext
  have hnumber : mixedWord.toNat / 256 ^ totalWidth (mixedSlot.fields.take 1) %
      256 ^ ValueType.address.width = 0xd8da6bf26964af9d7eed9e03e53415d37aa96045 := by decide
  exact ⟨rfl, hfield, decode_mixedSlot, hnumber ▸ hof⟩

end SlotIndex
