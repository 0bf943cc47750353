import SlotIndex.Diff.Row
import SlotIndex.Diff.StateDiff
import SlotIndex.Proofs.Rlp.Codec
import SlotIndex.Proofs.Text.Decimal
import SlotIndex.Proofs.Text.Hex

/-!
# One change from two sources

A change of a slot can be written in a row of a file, with the address of the contract and texts of any
case and length, or be reported in a state diff, with the hash of the address and bytes without leading
zeros. Both give the same diff, so that the table of diffs holds the change once.

* `Hex.Writes`, `Decimal.Writes`: fields that write a number.
* `paddedField_writes`, `wordField_writes`, `addressField_writes`, `heightField_writes`.
* `Change`, `Change.IsWrittenIn`, `Change.IsReportedIn`: a change and what it looks like in a source.
* **`ofRow_eq_diffOf`**: the two sources agree.
-/

namespace SlotIndex

/-- A field writes a number: between blanks it holds a mark or none, and at most two digits of either
case for each byte. -/
def Hex.Writes (width : Nat) (written : String) (n : Nat) : Prop :=
  ∃ mark digits values, Text.trim written.toList = mark ++ digits ∧
    (mark = [] ∨ mark = ['0', 'x'] ∨ mark = ['0', 'X']) ∧
    Hex.Digits digits values ∧ digits.length ≤ 2 * width ∧ Hex.number values = n

/-- A field writes a number: between blanks it holds a plus sign or none, and digits. -/
def Decimal.Writes (written : String) (n : Nat) : Prop :=
  ∃ sign digits values, Text.trim written.toList = sign ++ digits ∧ (sign = [] ∨ sign = ['+']) ∧
    Decimal.Digits digits values ∧ digits ≠ [] ∧ Decimal.number values = n

theorem Hex.writes_prefixed (bytes : List UInt8) :
    Hex.Writes bytes.length (Hex.prefixed bytes) (BigEndian.toNat bytes) :=
  ⟨['0', 'x'], Hex.encode bytes, Hex.nibbles bytes, Hex.trim_prefixed bytes, .inr (.inl rfl),
    Hex.digits_encode bytes, Nat.le_of_eq (Hex.length_encode_bytes bytes), Hex.number_nibbles bytes⟩

theorem Decimal.writes_text (n : Nat) : Decimal.Writes (Decimal.text n) n := by
  obtain ⟨values, hvalues, hnumber⟩ := Decimal.exists_digits n
  exact ⟨[], Decimal.digits n, values, Decimal.trim_text n, .inl rfl, hvalues,
    Decimal.digits_ne_nil n, hnumber⟩

/-! ## Fields -/

theorem Hex.unmarked_mark {mark digits : List Char} {values : List Nat}
    (hmark : mark = [] ∨ mark = ['0', 'x'] ∨ mark = ['0', 'X']) (h : Hex.Digits digits values) :
    Hex.unmarked (mark ++ digits) = digits := by
  rcases hmark with rfl | rfl | rfl
  · exact Hex.unmarked_digits h
  · rfl
  · rfl

/-- **A hexadecimal field** is read as the bytes that write its number in the width of the field. -/
theorem paddedField_writes {width n : Nat} {written : String} (h : Hex.Writes width written n)
    (field : String) : ∃ bytes, paddedField field width written = .ok bytes ∧
      bytes.length = width ∧ BigEndian.toNat bytes = n := by
  obtain ⟨mark, digits, values, htrim, hmark, hdigits, hlength, rfl⟩ := h
  -- An odd number of digits gets a zero in front, which changes nothing in the number.
  obtain ⟨even, values', heven, hvalues, hmod, hle, hnumber⟩ : ∃ even values',
      (if (Utf8.encode digits).length % 2 = 1 then '0' :: digits else digits) = even ∧
      Hex.Digits even values' ∧ even.length % 2 = 0 ∧ even.length ≤ 2 * width ∧
      Hex.number values' = Hex.number values := by
    rw [Hex.length_encode hdigits]
    by_cases hodd : digits.length % 2 = 1
    · refine ⟨'0' :: digits, 0 :: values, if_pos hodd, .cons Hex.isDigit_zero hdigits, ?_, ?_, rfl⟩
      · rw [List.length_cons]
        omega
      · rw [List.length_cons]
        omega
    · exact ⟨digits, values, if_neg hodd, hdigits, by omega, hlength, rfl⟩
  obtain ⟨bytes, hbytes, htwice, htoNat⟩ := Hex.decode_digits hvalues hmod
  have hwidth : bytes.length ≤ width := by omega
  refine ⟨List.replicate (width - bytes.length) 0 ++ bytes, ?_, ?_, ?_⟩
  · have hunmarked := Hex.unmarked_mark hmark hdigits
    rw [Hex.unmarked] at hunmarked
    rw [paddedField]
    simp only [htrim, hunmarked, heven, hbytes, if_pos hwidth]
  · rw [List.length_append, List.length_replicate, Nat.sub_add_cancel hwidth]
  · rw [BigEndian.toNat_replicate_append, htoNat, hnumber]

theorem wordField_writes {w : Word} {written : String} (h : Hex.Writes 32 written w.toNat)
    (field : String) : wordField field written = .ok w := by
  obtain ⟨bytes, hbytes, -, htoNat⟩ := paddedField_writes h field
  rw [wordField, hbytes]
  change Except.ok (Word.ofBytes bytes) = _
  rw [Word.ofBytes, htoNat, Word.ofNat_toNat]

theorem addressField_writes {a : Address} {written : String} (h : Hex.Writes 20 written a.toNat)
    (field : String) : addressField field written = .ok a := by
  obtain ⟨bytes, hbytes, -, htoNat⟩ := paddedField_writes h field
  rw [addressField, hbytes]
  refine congrArg Except.ok (Address.ext ?_)
  change BigEndian.toNat bytes % _ = a.toNat
  rw [htoNat, Nat.mod_eq_of_lt a.toNat_lt]

theorem heightField_writes {height : UInt64} {written : String}
    (h : Decimal.Writes written height.toNat) (field : String) :
    heightField field written = .ok height := by
  obtain ⟨sign, digits, values, htrim, hsign, hdigits, hne, hnumber⟩ := h
  have hlt : Decimal.number values < UInt64.size := hnumber ▸ height.toNat_lt
  rw [heightField, htrim, Decimal.readUInt64, Decimal.readUnsigned_digits hsign hdigits hne hlt,
    hnumber]
  exact congrArg Except.ok UInt64.ofNat_toNat

/-! ## Sources -/

/-- A change of a slot, with the address of its contract. -/
structure Change where
  address : Address
  blockHash : Word
  height : UInt64
  key : Word
  value : Word

namespace Change

/-- The diff of a change. -/
def diff (c : Change) : Diff := ⟨c.address.hash, c.blockHash, c.height, c.key, c.value⟩

/-- The row with the full texts of a change. -/
def row (c : Change) : List String :=
  [c.address.text, c.blockHash.text, Decimal.text c.height.toNat, c.key.text, c.value.text]

/-- The fields of a row write the parts of a change. -/
inductive IsWrittenIn (c : Change) : List String → Prop where
  | intro {address blockHash height key value : String} (haddress : Hex.Writes 20 address c.address.toNat)
    (hblockHash : Hex.Writes 32 blockHash c.blockHash.toNat)
    (hheight : Decimal.Writes height c.height.toNat) (hkey : Hex.Writes 32 key c.key.toNat)
    (hvalue : Hex.Writes 32 value c.value.toNat) :
    IsWrittenIn c [address, blockHash, height, key, value]

/-- A storage entry of an account in a state diff reports a change: the account has the hash of the
address, and the key and the value may lack any of their leading zero bytes. -/
structure IsReportedIn (c : Change) (d : StateDiff) (account : AccountDiff) (entry : StorageEntry) :
    Prop where
  account : account.key = c.address.hash.bytes
  blockHash : d.hash = c.blockHash
  height : d.number = c.height
  key : ∃ zeros, List.replicate zeros 0 ++ entry.key = c.key.bytes
  value : ∃ zeros payload, List.replicate zeros 0 ++ payload = c.value.bytes ∧
    entry.value = Rlp.writeString payload

theorem isWrittenIn_row (c : Change) : c.IsWrittenIn c.row := by
  have hword (w : Word) : Hex.Writes 32 w.text w.toNat := by
    have h := Hex.writes_prefixed w.bytes
    rwa [Word.length_bytes, Word.toNat_bytes] at h
  have haddress : Hex.Writes 20 c.address.text c.address.toNat := by
    have h := Hex.writes_prefixed c.address.bytes
    rwa [Address.length_bytes, Address.toNat_bytes] at h
  exact .intro haddress (hword _) (Decimal.writes_text _) (hword _) (hword _)

theorem ofRow_of_isWrittenIn {c : Change} {row : List String} (h : c.IsWrittenIn row) :
    Diff.ofRow row = .ok c.diff := by
  obtain ⟨haddress, hblockHash, hheight, hkey, hvalue⟩ := h
  rw [Diff.ofRow, addressField_writes haddress, wordField_writes hblockHash,
    heightField_writes hheight, wordField_writes hkey, wordField_writes hvalue]
  rfl

/-- A word is read from its bytes, whichever of its leading zero bytes are missing. -/
theorem ofBytes_of_replicate_append {w : Word} {zeros : Nat} {bytes : List UInt8}
    (h : List.replicate zeros 0 ++ bytes = w.bytes) : Word.ofBytes bytes = w := by
  rw [Word.ofBytes, ← BigEndian.toNat_replicate_append zeros, h, Word.toNat_bytes, Word.ofNat_toNat]

theorem diffOf_of_isReportedIn {c : Change} {d : StateDiff} {account : AccountDiff}
    {entry : StorageEntry} (h : c.IsReportedIn d account entry) :
    d.diffOf account entry = .ok c.diff := by
  obtain ⟨haccount, hblockHash, hheight, ⟨zeros, hkey⟩, zeros', payload, hvalue, hentry⟩ := h
  have hlt : payload.length < UInt64.size := by
    have hlength := congrArg List.length hvalue
    rw [Word.length_bytes, List.length_append] at hlength
    change payload.length < 18446744073709551616
    omega
  have hread := Rlp.readExactly_string_eq_ok.2 ⟨hlt, hentry⟩
  rw [StateDiff.diffOf, hread]
  simp only [haccount, Word.ofBytes_bytes, hblockHash, hheight, ofBytes_of_replicate_append hkey,
    ofBytes_of_replicate_append hvalue, diff]

end Change

/-- **The two sources agree.** A storage entry that reports a change gives the diff of the change, and so
does every row that writes it, such as the row of its full texts. -/
theorem ofRow_eq_diffOf {c : Change} {d : StateDiff} {account : AccountDiff} {entry : StorageEntry}
    (h : c.IsReportedIn d account entry) :
    d.diffOf account entry = .ok c.diff ∧ Diff.ofRow c.row = d.diffOf account entry ∧
      ∀ row, c.IsWrittenIn row → Diff.ofRow row = d.diffOf account entry := by
  have hreported := Change.diffOf_of_isReportedIn h
  have hagree : ∀ row, c.IsWrittenIn row → Diff.ofRow row = d.diffOf account entry := by
    intro row hrow
    rw [hreported, Change.ofRow_of_isWrittenIn hrow]
  exact ⟨hreported, hagree c.row c.isWrittenIn_row, hagree⟩

/-- A change in a row with short texts and in a state diff with stripped bytes: a key that needs a header
of its own, and a value that is a single byte below `0x80`. -/
theorem ofRow_eq_diffOf_stripped :
    let c : Change := ⟨Address.ofBytes [1, 2], Word.ofNat 7, 300, Word.ofNat 0x80, Word.ofNat 5⟩
    let entry : StorageEntry := ⟨[0x80], [5]⟩
    let account : AccountDiff := ⟨c.address.hash.bytes, [], [entry]⟩
    let d : StateDiff := ⟨300, Word.ofNat 7, [account], [], []⟩
    let row := ["102", " 0x07", "+300", "0X80 ", "5"]
    c.IsReportedIn d account entry ∧ c.IsWrittenIn row ∧ Diff.ofRow row = d.diffOf account entry := by
  intro c entry account d row
  have hreported : c.IsReportedIn d account entry :=
    ⟨rfl, rfl, rfl, ⟨31, by decide⟩, 31, [5], by decide, by decide⟩
  have hwritten : c.IsWrittenIn row := by
    refine .intro ?_ ?_ ?_ ?_ ?_
    · exact ⟨[], ['1', '0', '2'], [1, 0, 2], by decide⟩
    · exact ⟨['0', 'x'], ['0', '7'], [0, 7], by decide⟩
    · exact ⟨['+'], ['3', '0', '0'], [3, 0, 0], by decide⟩
    · exact ⟨['0', 'X'], ['8', '0'], [8, 0], by decide⟩
    · exact ⟨[], ['5'], [5], by decide⟩
  exact ⟨hreported, hwritten, (ofRow_eq_diffOf hreported).2.2 row hwritten⟩

end SlotIndex
