import SlotIndex.Proofs.Diff.Spelling
import SlotIndex.Proofs.Fallible

/-!
# Rows that are read

A row is read exactly if it has five fields that write numbers, or that write numbers behind a stray mark.
A field drops the mark in front of it, an odd number of digits gets a zero in front, and then the digits are
read by a reader that drops a mark of its own. So a second mark is passed over too, and so is a letter `x`
alone, which the zero makes a mark; either only in front of an even number of digits.

* `Hex.Strays`, `Hex.ReadsAs`: fields with a stray mark, and all fields that are read.
* `paddedField_eq_ok`, `wordField_eq_ok`, `addressField_eq_ok`, `heightField_eq_ok`: what a field is read as.
* `Hex.HasStray`: a letter `x` behind the mark of a field.
* **`RowNumbers.ofRow_eq_ok_iff`**: which rows are read, and which of them spell their numbers.
* `RowNumbers.stray_letter_read`: a row that is read although a field of it is not hexadecimal.
-/

namespace SlotIndex

open scoped CoreNat

namespace Hex

/-! ## Marks -/

/-- The letter of a mark. -/
def IsMarkLetter (x : Char) : Prop := x = 'x' ∨ x = 'X'

instance : DecidablePred IsMarkLetter := fun x => inferInstanceAs (Decidable (x = 'x' ∨ x = 'X'))

/-- A text is without a mark, or it is a mark and the rest. -/
theorem unmarked_cases (text : List Char) : (afterHexMark? text = none ∧ unmarked text = text) ∨
    ∃ x, IsMarkLetter x ∧ text = '0' :: x :: unmarked text := by
  unfold unmarked afterHexMark?
  split
  · exact .inr ⟨'x', .inl rfl, rfl⟩
  · exact .inr ⟨'X', .inr rfl, rfl⟩
  · exact .inl ⟨rfl, rfl⟩

theorem unmarked_cons_cons {x : Char} (hx : IsMarkLetter x) (rest : List Char) :
    unmarked ('0' :: x :: rest) = rest := by
  rcases hx with rfl | rfl <;> rfl

theorem unmarked_letter {x : Char} (hx : IsMarkLetter x) (rest : List Char) :
    unmarked (x :: rest) = x :: rest := by
  rcases hx with rfl | rfl <;> rfl

theorem length_encode_letter {x : Char} (hx : IsMarkLetter x) (rest : List Char) :
    (Utf8.encode (x :: rest)).length = (Utf8.encode rest).length + 1 := by
  rcases hx with rfl | rfl <;> rfl

/-! ## Stray marks -/

/-- At most two digits for each byte write a number. -/
def Denotes (width : Nat) (digits : List Char) (n : Nat) : Prop :=
  ∃ values, Digits digits values ∧ digits.length ≤ 2 * width ∧ number values = n

/-- A field writes a number behind a stray mark: between blanks it holds a mark or none, the letter of a mark
or a mark again, and then an even number of digits. -/
inductive Strays (width : Nat) (written : String) (n : Nat) : Prop where
  /-- A letter alone. -/
  | letter {mark digits : List Char} {x : Char}
      (htrim : Text.trim written.toList = mark ++ x :: digits)
      (hmark : mark = [] ∨ mark = ['0', 'x'] ∨ mark = ['0', 'X']) (hx : IsMarkLetter x)
      (hdigits : Denotes width digits n) (heven : digits.length % 2 = 0)
  /-- A second mark. -/
  | mark {digits : List Char} {x y : Char}
      (htrim : Text.trim written.toList = '0' :: x :: '0' :: y :: digits) (hx : IsMarkLetter x)
      (hy : IsMarkLetter y) (hdigits : Denotes width digits n) (heven : digits.length % 2 = 0)

/-- A field is read as a number: it writes the number, or it does so behind a stray mark. -/
def ReadsAs (width : Nat) (written : String) (n : Nat) : Prop :=
  Writes width written n ∨ Strays width written n

/-- The text of a field has a letter `x` behind the mark or, without a mark, anywhere. -/
def HasStray (written : String) : Prop := ∃ c ∈ unmarked (Text.trim written.toList), IsMarkLetter c

instance : DecidablePred HasStray := fun _ => List.decidableBEx IsMarkLetter _

variable {width n : Nat} {written : String}

theorem writes_iff :
    Writes width written n ↔ Denotes width (unmarked (Text.trim written.toList)) n := by
  constructor
  · rintro ⟨mark, digits, values, htrim, hmark, hdigits, hlength, hnumber⟩
    rw [htrim, unmarked_mark hmark hdigits]
    exact ⟨values, hdigits, hlength, hnumber⟩
  · rintro ⟨values, hdigits, hlength, hnumber⟩
    obtain ⟨-, htext⟩ | ⟨x, rfl | rfl, htext⟩ := unmarked_cases (Text.trim written.toList)
    · exact ⟨[], _, values, htext.symm, .inl rfl, hdigits, hlength, hnumber⟩
    · exact ⟨['0', 'x'], _, values, htext, .inr (.inl rfl), hdigits, hlength, hnumber⟩
    · exact ⟨['0', 'X'], _, values, htext, .inr (.inr rfl), hdigits, hlength, hnumber⟩

theorem strays_iff : Strays width written n ↔ ∃ x digits,
    (unmarked (Text.trim written.toList) = x :: digits ∨
      unmarked (Text.trim written.toList) = '0' :: x :: digits) ∧ IsMarkLetter x ∧
      Denotes width digits n ∧ digits.length % 2 = 0 := by
  constructor
  · rintro (⟨htrim, hmark, hx, hdigits, heven⟩ | ⟨htrim, hx, hy, hdigits, heven⟩)
    · refine ⟨_, _, .inl ?_, hx, hdigits, heven⟩
      rw [htrim]
      rcases hmark with rfl | rfl | rfl
      · exact unmarked_letter hx _
      · rfl
      · rfl
    · refine ⟨_, _, .inr ?_, hy, hdigits, heven⟩
      rw [htrim, unmarked_cons_cons hx]
  · rintro ⟨x, digits, hunmarked | hunmarked, hx, hdigits, heven⟩
    · obtain ⟨-, htext⟩ | ⟨y, rfl | rfl, htext⟩ := unmarked_cases (Text.trim written.toList)
      · exact .letter (htext.symm.trans hunmarked) (.inl rfl) hx hdigits heven
      · rw [hunmarked] at htext
        exact @Strays.letter _ _ _ ['0', 'x'] _ _ htext (.inr (.inl rfl)) hx hdigits heven
      · rw [hunmarked] at htext
        exact @Strays.letter _ _ _ ['0', 'X'] _ _ htext (.inr (.inr rfl)) hx hdigits heven
    · obtain ⟨hnone, htext⟩ | ⟨y, hy, htext⟩ := unmarked_cases (Text.trim written.toList)
      · rw [← htext, hunmarked] at hnone
        rcases hx with rfl | rfl <;> contradiction
      · rw [hunmarked] at htext
        exact .mark htext hy hx hdigits heven

theorem Denotes.not_hasStray {digits : List Char} (h : Denotes width digits n) :
    ∀ c ∈ digits, ¬ IsMarkLetter c := by
  obtain ⟨values, hdigits, -, -⟩ := h
  induction hdigits with
  | nil => exact fun _ hc => absurd hc List.not_mem_nil
  | cons hc _ ih =>
    refine List.forall_mem_cons.2 ⟨?_, ih⟩
    rintro (rfl | rfl)
    · exact absurd hc (by simp [IsDigit, value?])
    · exact absurd hc (by simp [IsDigit, value?])

/-- **The fields that are read without a stray letter** are those that write their number. -/
theorem writes_iff_readsAs : Writes width written n ↔ ReadsAs width written n ∧ ¬ HasStray written := by
  constructor
  · intro h
    refine ⟨.inl h, ?_⟩
    rintro ⟨c, hc, hx⟩
    exact (writes_iff.1 h).not_hasStray c hc hx
  · rintro ⟨h | h, hstray⟩
    · exact h
    · obtain ⟨x, digits, hunmarked | hunmarked, hx, -⟩ := strays_iff.1 h
      · exact absurd ⟨x, by simp [hunmarked], hx⟩ hstray
      · exact absurd ⟨x, by simp [hunmarked], hx⟩ hstray

/-! ## Reading -/

/-- A text with a zero in front of an odd number of octets. -/
def evened (text : List Char) : List Char :=
  if (Utf8.encode text).length % 2 = 1 then '0' :: text else text

/-- What is read of a text with an even number of octets: digits, or digits behind a stray mark, which the
zero in front of an odd number may have made of a letter. -/
theorem denotes_unmarked_evened {text : List Char} (h : Denotes width (unmarked (evened text)) n)
    (heven : (unmarked (evened text)).length % 2 = 0) : Denotes width text n ∨
      ∃ x digits, (text = x :: digits ∨ text = '0' :: x :: digits) ∧ IsMarkLetter x ∧
        Denotes width digits n ∧ digits.length % 2 = 0 := by
  unfold evened at h heven
  by_cases hodd : (Utf8.encode text).length % 2 = 1
  · rw [if_pos hodd] at h heven
    obtain ⟨-, htext⟩ | ⟨x, hx, htext⟩ := unmarked_cases ('0' :: text)
    · rw [htext] at h
      obtain ⟨values, hvalues, hlength, hnumber⟩ := h
      cases hvalues with
      | cons hzero hdigits =>
        -- The zero in front counts for nothing.
        obtain rfl := Option.some.inj (isDigit_zero.2.symm.trans hzero.2)
        exact .inl ⟨_, hdigits, Nat.le_trans (Nat.le_succ _) hlength, hnumber⟩
    · exact .inr ⟨x, _, .inl (List.cons.inj htext).2, hx, h, heven⟩
  · rw [if_neg hodd] at h heven
    obtain ⟨-, htext⟩ | ⟨x, hx, htext⟩ := unmarked_cases text
    · exact .inl (htext ▸ h)
    · exact .inr ⟨x, _, .inr htext, hx, h, heven⟩

theorem exists_decode_evened {text digits : List Char} {x : Char}
    (htext : text = x :: digits ∨ text = '0' :: x :: digits) (hx : IsMarkLetter x)
    (hdigits : Denotes width digits n) (heven : digits.length % 2 = 0) :
    ∃ decoded, decode (evened text) = .ok decoded ∧ decoded.length ≤ width ∧
      BigEndian.toNat decoded = n := by
  obtain ⟨values, hvalues, hlength, rfl⟩ := hdigits
  have hunmarked : unmarked (evened text) = digits := by
    have hlengths := length_encode_letter hx digits
    rw [length_encode hvalues] at hlengths
    rcases htext with rfl | rfl
    · rw [evened, if_pos (by omega), unmarked_cons_cons hx]
    · have hmark : (Utf8.encode ('0' :: x :: digits)).length = (Utf8.encode (x :: digits)).length + 1 :=
        rfl
      rw [evened, if_neg (by omega), unmarked_cons_cons hx]
  have hread := @exists_decode (evened text) values
  rw [hunmarked] at hread
  obtain ⟨decoded, hdecode, htwice, hnumber⟩ := hread hvalues heven
  exact ⟨decoded, hdecode, by omega, hnumber⟩

end Hex

/-! ## Fields -/

section Fields

variable {field written : String} {width : Nat} {bytes : List UInt8}

/-- The bytes of a field are those that have been read, with zeros in front. -/
theorem paddedField_eq_ok_iff_decode : paddedField field width written = .ok bytes ↔
    bytes.length = width ∧ ∃ decoded,
      Hex.decode (Hex.evened (Hex.unmarked (Text.trim written.toList))) = .ok decoded ∧
      decoded.length ≤ width ∧ BigEndian.toNat decoded = BigEndian.toNat bytes := by
  cases hdecode : Hex.decode (Hex.evened (Hex.unmarked (Text.trim written.toList))) with
  | error fault =>
    rw [Hex.evened, Hex.unmarked] at hdecode
    simp [paddedField, hdecode]
  | ok decoded =>
    rw [Hex.evened, Hex.unmarked] at hdecode
    simp only [Except.ok.injEq, exists_eq_left']
    simp only [paddedField, hdecode]
    by_cases hle : decoded.length ≤ width
    · have hlength : (List.replicate (width - decoded.length) 0 ++ decoded).length = width := by
        rw [List.length_append, List.length_replicate, Nat.sub_add_cancel hle]
      have htoNat := BigEndian.toNat_replicate_append (width - decoded.length) decoded
      rw [if_pos hle, Except.ok.injEq]
      constructor
      · rintro rfl
        exact ⟨hlength, hle, htoNat.symm⟩
      · rintro ⟨hbytes, -, hsame⟩
        exact BigEndian.toNat_injective (hlength.trans hbytes.symm) (htoNat.trans hsame)
    · rw [if_neg hle]
      exact iff_of_false (fun h => by cases h) fun h => hle h.2.1

/-- **A hexadecimal field** is read exactly if it is read as the number of its bytes. -/
theorem paddedField_eq_ok : paddedField field width written = .ok bytes ↔
    bytes.length = width ∧ Hex.ReadsAs width written (BigEndian.toNat bytes) := by
  constructor
  · intro h
    obtain ⟨hlength, decoded, hdecode, hle, htoNat⟩ := paddedField_eq_ok_iff_decode.1 h
    obtain ⟨values, hvalues, htwice, hnumber⟩ := Hex.decode_eq_ok_iff.1 hdecode
    refine ⟨hlength, ?_⟩
    have hdenotes : Hex.Denotes width _ (BigEndian.toNat bytes) :=
      ⟨values, hvalues, by omega, hnumber.symm.trans htoNat⟩
    rcases Hex.denotes_unmarked_evened hdenotes (by omega) with hdigits | hstray
    · exact .inl (Hex.writes_iff.2 hdigits)
    · exact .inr (Hex.strays_iff.2 hstray)
  · rintro ⟨hlength, hwrites | hstrays⟩
    · obtain ⟨bytes', hread, hlength', htoNat⟩ := paddedField_writes hwrites field
      rw [hread, BigEndian.toNat_injective (hlength'.trans hlength.symm) htoNat]
    · obtain ⟨x, digits, htext, hx, hdigits, heven⟩ := Hex.strays_iff.1 hstrays
      exact paddedField_eq_ok_iff_decode.2
        ⟨hlength, Hex.exists_decode_evened htext hx hdigits heven⟩

theorem wordField_eq_ok {w : Word} :
    wordField field written = .ok w ↔ Hex.ReadsAs 32 written w.toNat := by
  simp only [wordField, map_eq_ok, paddedField_eq_ok]
  constructor
  · rintro ⟨bytes, ⟨hlength, hreads⟩, rfl⟩
    rwa [← Word.toNat_bytes, Word.bytes_ofBytes hlength]
  · intro h
    exact ⟨w.bytes, ⟨w.length_bytes, by rwa [Word.toNat_bytes]⟩, Word.ofBytes_bytes w⟩

theorem addressField_eq_ok {a : Address} :
    addressField field written = .ok a ↔ Hex.ReadsAs 20 written a.toNat := by
  simp only [addressField, map_eq_ok, paddedField_eq_ok]
  have htoNat (bytes : List UInt8) (hlength : bytes.length = 20) :
      (Address.ofBytes bytes).toNat = BigEndian.toNat bytes :=
    Nat.mod_eq_of_lt (hlength ▸ BigEndian.toNat_lt bytes)
  constructor
  · rintro ⟨bytes, ⟨hlength, hreads⟩, rfl⟩
    rwa [htoNat bytes hlength]
  · intro h
    refine ⟨a.bytes, ⟨a.length_bytes, by rwa [Address.toNat_bytes]⟩, Address.ext ?_⟩
    rw [htoNat _ a.length_bytes, Address.toNat_bytes]

/-- **A height** is read exactly if the field writes it. -/
theorem heightField_eq_ok {height : UInt64} :
    heightField field written = .ok height ↔ Decimal.Writes written height.toNat := by
  refine ⟨fun h => ?_, fun h => heightField_writes h field⟩
  rw [heightField, mapError_eq_ok, Decimal.readUInt64, map_eq_ok] at h
  obtain ⟨n, hread, rfl⟩ := h
  obtain ⟨sign, digits, values, htrim, hsign, hdigits, hne, hnumber, hlt⟩ :=
    Decimal.exists_digits_of_readUnsigned hread (by decide)
  exact ⟨sign, digits, values, htrim, hsign, hdigits, hne,
    hnumber.trans (UInt64.toNat_ofNat_of_lt' hlt).symm⟩

end Fields

/-- A number that a field is read as has no more bytes than the field. -/
theorem Hex.ReadsAs.lt {width n : Nat} {written : String} (h : Hex.ReadsAs width written n) :
    n < 256 ^ width := by
  rcases h with hwrites | hstrays
  · obtain ⟨bytes, -, hlength, rfl⟩ := paddedField_writes hwrites ""
    exact hlength ▸ BigEndian.toNat_lt bytes
  · obtain ⟨x, digits, htext, hx, hdigits, heven⟩ := Hex.strays_iff.1 hstrays
    obtain ⟨decoded, -, hle, rfl⟩ := Hex.exists_decode_evened htext hx hdigits heven
    exact Nat.lt_of_lt_of_le (BigEndian.toNat_lt decoded) (Nat.pow_le_pow_right (by decide) hle)

/-! ## Rows -/

namespace RowNumbers

/-- The five fields of a row are read as the numbers, the height in decimal digits and below `2 ^ 64`. -/
inductive ReadFrom (n : RowNumbers) : List String → Prop where
  | intro {address blockHash height key value : String} (haddress : Hex.ReadsAs 20 address n.address)
    (hblockHash : Hex.ReadsAs 32 blockHash n.blockHash) (hheight : Decimal.Writes height n.height)
    (hlt : n.height < UInt64.size) (hkey : Hex.ReadsAs 32 key n.key)
    (hvalue : Hex.ReadsAs 32 value n.value) : ReadFrom n [address, blockHash, height, key, value]

variable {n : RowNumbers} {row : List String} {d : Diff}

/-- A row is read as a diff exactly if its fields are read as the numbers that the diff holds. -/
theorem ofRow_eq_ok : Diff.ofRow row = .ok d ↔ ∃ n : RowNumbers, n.ReadFrom row ∧ n.HeldBy d := by
  constructor
  · intro h
    unfold Diff.ofRow at h
    split at h
    · simp only [bind_eq_ok, pure_eq_ok, addressField_eq_ok, wordField_eq_ok, heightField_eq_ok] at h
      obtain ⟨a, ha, b, hb, height, hheight, k, hk, v, hv, rfl⟩ := h
      exact ⟨⟨a.toNat, b.toNat, height.toNat, k.toNat, v.toNat⟩,
        .intro ha hb hheight height.toNat_lt hk hv, ⟨rfl, rfl, rfl, rfl, rfl⟩⟩
    · contradiction
  · rintro ⟨n, ⟨haddress, hblockHash, hheight, hlt, hkey, hvalue⟩, hheld⟩
    have htoNat : (UInt64.ofNat n.height).toNat = n.height := UInt64.toNat_ofNat_of_lt' hlt
    have ha := (@addressField_eq_ok "address" _ ⟨n.address, haddress.lt⟩).2 haddress
    have hb := (@wordField_eq_ok "block_hash" _ ⟨n.blockHash, hblockHash.lt⟩).2 hblockHash
    have hh := @heightField_writes (UInt64.ofNat n.height) _ (htoNat.symm ▸ hheight) "block_height"
    have hk := (@wordField_eq_ok "storage_key" _ ⟨n.key, hkey.lt⟩).2 hkey
    have hv := (@wordField_eq_ok "storage_value" _ ⟨n.value, hvalue.lt⟩).2 hvalue
    rw [Diff.ofRow, ha, hb, hh, hk, hv]
    exact congrArg Except.ok (HeldBy.unique ⟨rfl, rfl, htoNat, rfl, rfl⟩ hheld)

theorem ReadFrom.exists_ofRow (h : n.ReadFrom row) : ∃ d, Diff.ofRow row = .ok d := by
  obtain ⟨haddress, hblockHash, hheight, hlt, hkey, hvalue⟩ := id h
  have htoNat : (UInt64.ofNat n.height).toNat = n.height := UInt64.toNat_ofNat_of_lt' hlt
  exact ⟨⟨keccak256 (BigEndian.ofNat 20 n.address), ⟨n.blockHash, hblockHash.lt⟩, UInt64.ofNat n.height,
    ⟨n.key, hkey.lt⟩, ⟨n.value, hvalue.lt⟩⟩, ofRow_eq_ok.2 ⟨n, h, ⟨rfl, rfl, htoNat, rfl, rfl⟩⟩⟩

/-- The rows that spell their numbers are those that are read without a stray letter. -/
theorem spelledBy_iff : n.SpelledBy row ↔
    n.ReadFrom row ∧ ∀ field ∈ row.eraseIdx 2, ¬ Hex.HasStray field := by
  constructor
  · rintro ⟨haddress, hblockHash, hheight, hlt, hkey, hvalue⟩
    rw [Hex.writes_iff_readsAs] at haddress hblockHash hkey hvalue
    refine ⟨.intro haddress.1 hblockHash.1 hheight hlt hkey.1 hvalue.1, ?_⟩
    simp [haddress.2, hblockHash.2, hkey.2, hvalue.2]
  · rintro ⟨⟨haddress, hblockHash, hheight, hlt, hkey, hvalue⟩, hstray⟩
    simp only [List.eraseIdx_cons_succ, List.eraseIdx_cons_zero, List.forall_mem_cons] at hstray
    obtain ⟨ha, hb, hk, hv, -⟩ := hstray
    exact .intro (Hex.writes_iff_readsAs.2 ⟨haddress, ha⟩) (Hex.writes_iff_readsAs.2 ⟨hblockHash, hb⟩)
      hheight hlt (Hex.writes_iff_readsAs.2 ⟨hkey, hk⟩) (Hex.writes_iff_readsAs.2 ⟨hvalue, hv⟩)

/-- **Which rows are read.** A row is read exactly if it has five fields that are read as numbers, four
hexadecimal ones and a height, and then as the diff that holds the numbers. It spells the numbers, with one
mark at most in front of the digits of a field and any number of digits up to the width, exactly if besides
none of the four fields has a letter `x` behind its mark. -/
theorem ofRow_eq_ok_iff (row : List String) :
    (∀ d, Diff.ofRow row = .ok d ↔ ∃ n : RowNumbers, n.ReadFrom row ∧ n.HeldBy d) ∧
    ((∃ n : RowNumbers, n.SpelledBy row) ↔
      (∃ d, Diff.ofRow row = .ok d) ∧ ∀ field ∈ row.eraseIdx 2, ¬ Hex.HasStray field) := by
  refine ⟨fun d => ofRow_eq_ok, ?_⟩
  simp only [spelledBy_iff]
  constructor
  · rintro ⟨n, hread, hstray⟩
    exact ⟨hread.exists_ofRow, hstray⟩
  · rintro ⟨⟨d, hd⟩, hstray⟩
    obtain ⟨n, hread, -⟩ := ofRow_eq_ok.1 hd
    exact ⟨n, hread, hstray⟩

/-- **A stray letter is passed over.** A row is read whose address has a letter `x` and no mark, and which
writes no number therefore; with one digit less behind the letter it is refused. -/
theorem stray_letter_read :
    (∃ d, Diff.ofRow ["x2a", "0x07", "789", "0x4", "0x2a"] = .ok d) ∧
      (¬ ∃ n : RowNumbers, n.SpelledBy ["x2a", "0x07", "789", "0x4", "0x2a"]) ∧
      Diff.ofRow ["x2", "0x07", "789", "0x4", "0x2a"] =
        .error (.invalidRowField "address" "invalid character 'x' at position 0") := by
  refine ⟨⟨_, rfl⟩, ?_, rfl⟩
  rintro ⟨n, h⟩
  exact (spelledBy_iff.1 h).2 "x2a" (by simp) (by decide +kernel)

end RowNumbers

end SlotIndex
