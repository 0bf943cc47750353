import SlotIndex.Proofs.Slot.Arithmetic
import SlotIndex.Proofs.Word.Reading

/-!
# Decoded text is read back

The text of a value is read as the word that holds the bytes of the value behind zeros, so a decoded value
tells the bytes that it comes from.

* `Word.part`, `toNat_part`: the bytes of a field.
* `TextOf.parse`: texts of numbers are read back.
* `text_inj`, `fieldTexts_eq_iff`: texts tell the numbers that they come from.
* `Shape.width`, `decode_eq_iff`: how many bytes of a word are decoded, and that they decide its value.
* **`text_reads_back`**.
-/

namespace SlotIndex

section

open scoped CoreNat

/-! ## Reading texts -/

/-- A text of a number is read as the word of the number. -/
theorem TextOf.parse {type : ValueType} {n : Nat} {text : String} (h : TextOf type n text)
    (hn : n < 256 ^ (32 : Nat)) : Word.parse text = .ok (Word.ofNat n) := by
  cases h with
  | unsigned htype h =>
    obtain ⟨⟨values, hdigits, rfl⟩, -⟩ := h
    exact Word.parse_decimalDigits hdigits hn
  | address h =>
    obtain ⟨digits, values, htext, hdigits, hlength, rfl, -⟩ := h
    exact Word.parse_hexDigits htext hdigits (by rw [hlength]) (by rw [hlength]; decide)
  | word htext hdigits hlength hnumber =>
    rw [← hnumber]
    exact Word.parse_hexDigits htext hdigits (by rw [hlength]) (Nat.le_of_eq hlength)

theorem lt_of_lt_width {type : ValueType} {n : Nat} (h : n < 256 ^ type.width) :
    n < 256 ^ (32 : Nat) :=
  Nat.lt_of_lt_of_le h (Nat.pow_le_pow_right (by decide) type.width_le)

theorem text_inj {type : ValueType} (htype : type ≠ .packedSlot) {v w : Nat}
    (hv : v < 256 ^ type.width) (hw : w < 256 ^ type.width) :
    type.text v = type.text w ↔ v = w := by
  refine ⟨fun h => ?_, fun h => congrArg _ h⟩
  have hread := (textOf_text htype hv).parse (lt_of_lt_width hv)
  rw [h, (textOf_text htype hw).parse (lt_of_lt_width hw)] at hread
  have hnumbers := congrArg Word.toNat (Except.ok.inj hread)
  rw [Word.toNat_ofNat, Word.toNat_ofNat, Nat.mod_eq_of_lt (lt_of_lt_width hv),
    Nat.mod_eq_of_lt (lt_of_lt_width hw)] at hnumbers
  exact hnumbers.symm

/-! ## Numbers with the same fields -/

/-- Numbers agree modulo a product exactly if their remainders agree and so do their quotients. -/
theorem mod_mul_eq_iff {a b v w : Nat} :
    v % (a * b) = w % (a * b) ↔ v % a = w % a ∧ v / a % b = w / a % b := by
  constructor
  · intro h
    constructor
    · rw [← Nat.mod_mul_right_mod v a b, h, Nat.mod_mul_right_mod]
    · rw [← Nat.mod_mul_right_div_self, h, Nat.mod_mul_right_div_self]
  · rintro ⟨hmod, hdiv⟩
    rw [Nat.mod_mul, Nat.mod_mul, hmod, hdiv]

/-- Numbers have the same fields exactly if they agree in the bytes of all fields together. -/
theorem fieldTexts_eq_iff {fields : List Field} (hnested : ∀ f ∈ fields, f.type ≠ .packedSlot)
    {v w : Nat} : fieldTexts fields v = fieldTexts fields w ↔
      v % 256 ^ totalWidth fields = w % 256 ^ totalWidth fields := by
  induction fields generalizing v w with
  | nil => simp [fieldTexts, totalWidth, Nat.mod_one]
  | cons f rest ih =>
    obtain ⟨hf, hrest⟩ := List.forall_mem_cons.1 hnested
    have hpos : 0 < 256 ^ f.type.width := Nat.pow_pos (by decide)
    rw [fieldTexts, fieldTexts, List.cons.injEq, ih hrest,
      text_inj hf (Nat.mod_lt _ hpos) (Nat.mod_lt _ hpos), totalWidth, Nat.pow_add, mod_mul_eq_iff]

/-! ## The bytes of a value -/

/-- The bytes of a word in front of its last `offset` ones, `width` of them. -/
def Word.part (w : Word) (offset width : Nat) : List UInt8 :=
  trailing width (w.bytes.take (32 - offset))

theorem length_part {offset width : Nat} (h : offset + width ≤ 32) (w : Word) :
    (w.part offset width).length = width := by
  rw [Word.part, length_trailing, List.length_take, Word.length_bytes]
  omega

theorem part_zero (w : Word) (width : Nat) : w.part 0 width = trailing width w.bytes := by
  rw [Word.part, List.take_of_length_le (by simp)]

theorem toNat_part (w : Word) (offset width : Nat) :
    BigEndian.toNat (w.part offset width) = w.toNat / 256 ^ offset % 256 ^ width := by
  have hfront := (BigEndian.toNat_split offset w.bytes).2
  rw [Word.length_bytes, Word.toNat_bytes] at hfront
  rw [Word.part, toNat_trailing, hfront]

/-- The word of the bytes of a value holds them behind zeros. -/
theorem parse_part {type : ValueType} {raw : Word} {offset : Nat} {text : String}
    (hfits : offset + type.width ≤ 32)
    (h : TextOf type (raw.toNat / 256 ^ offset % 256 ^ type.width) text) :
    ∃ w, Word.parse text = .ok w ∧
      w.bytes = List.replicate (32 - type.width) 0 ++ raw.part offset type.width := by
  have hlength := length_part hfits raw
  have hle : (raw.part offset type.width).length ≤ 32 := by
    rw [hlength]
    exact type.width_le
  have hlt : raw.toNat / 256 ^ offset % 256 ^ type.width < 256 ^ type.width :=
    Nat.mod_lt _ (Nat.pow_pos (by decide))
  refine ⟨_, h.parse (lt_of_lt_width hlt), ?_⟩
  rw [← toNat_part, ← Word.ofBytes, Word.bytes_ofBytes_of_le hle, hlength]

/-- The last bytes of words agree exactly if their numbers do. -/
theorem trailing_bytes_eq_iff {v w : Word} {width : Nat} :
    trailing width v.bytes = trailing width w.bytes ↔
      v.toNat % 256 ^ width = w.toNat % 256 ^ width := by
  have hnumber (x : Word) : BigEndian.toNat (trailing width x.bytes) = x.toNat % 256 ^ width := by
    rw [toNat_trailing, Word.toNat_bytes]
  rw [← hnumber, ← hnumber]
  refine ⟨congrArg _, BigEndian.toNat_injective ?_⟩
  rw [length_trailing, length_trailing, Word.length_bytes, Word.length_bytes]

end

/-! ## Words -/

/-- The number of bytes of a word that are decoded. -/
def Shape.width : Shape → Nat
  | .plain type => type.width
  | .packed fields => totalWidth fields

theorem ofTexts_injective {texts texts' : List String}
    (h : DecodedValue.ofTexts texts = DecodedValue.ofTexts texts') : texts = texts' := by
  have htexts (texts : List String) :
      (texts.zipIdx.map fun e => (e.2, e.1)).map Prod.snd = texts := by
    rw [List.map_map]
    exact List.zipIdx_map_fst 0 texts
  rw [← htexts texts, DecodedValue.packed.inj h, htexts]

/-- Words have the same value exactly if they agree in the bytes that are decoded. -/
theorem decode_eq_iff {m : Metadata} {v w : Word} : m.decode v = m.decode w ↔
    trailing m.shape.width v.bytes = trailing m.shape.width w.bytes := by
  obtain ⟨name, labels, shape, hvalid⟩ := m
  rw [Metadata.decode_eq, Metadata.decode_eq, trailing_bytes_eq_iff]
  cases shape with
  | plain type =>
    have hlt (x : Word) : x.toNat % 256 ^ type.width < 256 ^ type.width :=
      Nat.mod_lt _ (Nat.pow_pos (by decide))
    rw [Shape.value, Shape.value, DecodedValue.single.injEq]
    exact text_inj hvalid (hlt v) (hlt w)
  | packed fields =>
    rw [Shape.width, ← fieldTexts_eq_iff hvalid.2.1]
    exact ⟨ofTexts_injective, fun h => congrArg DecodedValue.ofTexts h⟩

/-- **Decoded text is read back.** The text of a word under a plain type, and the text at each position of a
packed slot, is read as a word: the bytes of the value, behind zeros. So two words have the same value
exactly if they agree in the bytes that are decoded. -/
theorem text_reads_back (m : Metadata) (raw : Word) :
    (∀ type, m.shape = .plain type → ∃ text w, m.decode raw = .single text ∧
      Word.parse text = .ok w ∧
      w.bytes = List.replicate (32 - type.width) 0 ++ trailing type.width raw.bytes) ∧
    (∀ fields, m.shape = .packed fields → ∃ texts : List (Nat × String),
      m.decode raw = .packed texts ∧ texts.length = fields.length ∧
      ∀ i f, fields[i]? = some f → ∃ text w, texts[i]? = some (i, text) ∧
        Word.parse text = .ok w ∧
        w.bytes = List.replicate (32 - f.type.width) 0 ++
          raw.part (totalWidth (fields.take i)) f.type.width) ∧
    ∀ other : Word, m.decode raw = m.decode other ↔
      trailing m.shape.width raw.bytes = trailing m.shape.width other.bytes := by
  refine ⟨fun type htype => ?_, fun fields hfields => ?_, fun other => decode_eq_iff⟩
  · obtain ⟨-, text, hdecode, htext⟩ := Metadata.decode_plain htype raw
    have hfits : 0 + type.width ≤ 32 := by simpa using type.width_le
    obtain ⟨w, hparse, hbytes⟩ := parse_part hfits (by simpa using htext)
    rw [part_zero] at hbytes
    exact ⟨text, w, hdecode, hparse, hbytes⟩
  · obtain ⟨texts, hdecode, hpositions, hall⟩ := Metadata.decode_packed hfields raw
    refine ⟨texts, hdecode, by simpa using congrArg List.length hpositions, fun i f hf => ?_⟩
    obtain ⟨-, hfits, text, htext, hof⟩ := hall i f hf
    obtain ⟨w, hparse, hbytes⟩ := parse_part hfits hof
    exact ⟨text, w, htext, hparse, hbytes⟩

/-- The owner in a word with three fields is read as the word of the address, and any other word of the same
value has the same last 25 bytes. -/
theorem text_reads_back_mixed :
    (∃ w, Word.parse "0xd8dA6BF26964aF9D7eEd9e03E53415D37aA96045" = .ok w ∧
      w.bytes = List.replicate 12 0 ++ mixedWord.part 1 20) ∧
    ∀ other : Word, mixedSlot.decode mixedWord = mixedSlot.decode other ↔
      trailing 25 mixedWord.bytes = trailing 25 other.bytes := by
  obtain ⟨-, hpacked, hagree⟩ := text_reads_back mixedSlot mixedWord
  obtain ⟨texts, htexts, -, hall⟩ := hpacked _ rfl
  obtain ⟨text, w, htext, hparse, hbytes⟩ := hall 1 ⟨"owner", .address⟩ rfl
  rw [decode_mixedSlot] at htexts
  obtain rfl := DecodedValue.packed.inj htexts
  obtain rfl : "0xd8dA6BF26964aF9D7eEd9e03E53415D37aA96045" = text := by simpa using htext
  exact ⟨⟨w, hparse, hbytes⟩, hagree⟩

end SlotIndex
