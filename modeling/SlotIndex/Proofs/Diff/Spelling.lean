import SlotIndex.Keccak
import SlotIndex.Proofs.Diff.Sources
import SlotIndex.Proofs.Feed.Storing

/-!
# Rows are read by value

The fields of a row of a diff file write five numbers. Marks, the case of digits, missing and additional
zeros and blanks are a matter of spelling, and all rows that write the same numbers are read as the same
diff, which the table of diffs then holds once.

* `RowNumbers`, `RowNumbers.SpelledBy`: the numbers of a row.
* `RowNumbers.HeldBy`: the diff with these numbers, of which there is one.
* `RowNumbers.exists_ofRow`: a row that is spelled in any way is read.
* **`RowNumbers.ofRow_of_spelledBy`**: the spelling makes no difference.
-/

namespace SlotIndex

theorem Hex.Writes.exists_word {written : String} {n : Nat} (h : Hex.Writes 32 written n) :
    ∃ w : Word, w.toNat = n := by
  obtain ⟨bytes, -, hlength, rfl⟩ := paddedField_writes h ""
  exact ⟨⟨BigEndian.toNat bytes, hlength ▸ BigEndian.toNat_lt bytes⟩, rfl⟩

theorem Hex.Writes.exists_address {written : String} {n : Nat} (h : Hex.Writes 20 written n) :
    ∃ a : Address, a.toNat = n := by
  obtain ⟨bytes, -, hlength, rfl⟩ := paddedField_writes h ""
  exact ⟨⟨BigEndian.toNat bytes, hlength ▸ BigEndian.toNat_lt bytes⟩, rfl⟩

/-- The numbers that the fields of a row write. -/
structure RowNumbers where
  address : Nat
  blockHash : Nat
  height : Nat
  key : Nat
  value : Nat

namespace RowNumbers

/-- The five fields of a row write the numbers: the height in decimal digits and below `2 ^ 64`, and the
others in hexadecimal digits, two at most for each byte of an address or a word. -/
inductive SpelledBy (n : RowNumbers) : List String → Prop where
  | intro {address blockHash height key value : String} (haddress : Hex.Writes 20 address n.address)
    (hblockHash : Hex.Writes 32 blockHash n.blockHash) (hheight : Decimal.Writes height n.height)
    (hlt : n.height < UInt64.size) (hkey : Hex.Writes 32 key n.key)
    (hvalue : Hex.Writes 32 value n.value) : SpelledBy n [address, blockHash, height, key, value]

/-- A diff holds the numbers: in the place of the address the hash of its 20 bytes, and the words in
their 32 bytes, most significant first. -/
structure HeldBy (n : RowNumbers) (d : Diff) : Prop where
  account : d.account = keccak256 (BigEndian.ofNat 20 n.address)
  blockHash : d.blockHash.bytes = BigEndian.ofNat 32 n.blockHash
  height : d.height.toNat = n.height
  key : d.key.bytes = BigEndian.ofNat 32 n.key
  value : d.value.bytes = BigEndian.ofNat 32 n.value

variable {n : RowNumbers} {row : List String} {c d : Diff}

/-- The numbers determine the diff. -/
theorem HeldBy.unique (hc : n.HeldBy c) (hd : n.HeldBy d) : c = d := by
  cases c
  cases d
  rw [Diff.mk.injEq]
  exact ⟨hc.account.trans hd.account.symm, Word.bytes_injective (hc.blockHash.trans hd.blockHash.symm),
    UInt64.toNat_inj.1 (hc.height.trans hd.height.symm), Word.bytes_injective (hc.key.trans hd.key.symm),
    Word.bytes_injective (hc.value.trans hd.value.symm)⟩

/-- A row that spells the numbers is read as the diff that holds them. -/
theorem exists_ofRow (h : n.SpelledBy row) : ∃ d, Diff.ofRow row = .ok d ∧ n.HeldBy d := by
  obtain ⟨haddress, hblockHash, hheight, hlt, hkey, hvalue⟩ := h
  obtain ⟨a, ha⟩ := haddress.exists_address
  obtain ⟨b, hb⟩ := hblockHash.exists_word
  obtain ⟨k, hk⟩ := hkey.exists_word
  obtain ⟨v, hv⟩ := hvalue.exists_word
  have htoNat : (UInt64.ofNat n.height).toNat = n.height := UInt64.toNat_ofNat_of_lt' hlt
  -- The change with these words is written in the row.
  let change : Change := ⟨a, b, UInt64.ofNat n.height, k, v⟩
  rw [← ha] at haddress
  rw [← hb] at hblockHash
  rw [← htoNat] at hheight
  rw [← hk] at hkey
  rw [← hv] at hvalue
  have hwritten := Change.ofRow_of_isWrittenIn (c := change)
    (.intro haddress hblockHash hheight hkey hvalue)
  refine ⟨change.diff, hwritten, ?_, ?_, htoNat, ?_, ?_⟩
  · rw [← ha]
    rfl
  · rw [← hb]
    rfl
  · rw [← hk]
    rfl
  · rw [← hv]
    rfl

/-- **Rows are read by value and not by spelling.** A row that spells five numbers is read as the diff
that holds them, and so is every other row that spells them. Sent together by any source, in bursts of
any kind and with anything in between, both leave the diff in the table once: never twice, whatever
writes fail, and in fact if no write fails. -/
theorem ofRow_of_spelledBy (h : n.SpelledBy row) :
    ∃ d, Diff.ofRow row = .ok d ∧ n.HeldBy d ∧
      ∀ other, n.SpelledBy other → Diff.ofRow other = .ok d ∧
        ∀ fails capacity stored bursts ending, 0 < capacity → stored.Nodup →
          Diff.ofRow row ∈ bursts.flatten → Diff.ofRow other ∈ bursts.flatten →
          let table := (Extraction.run fails capacity (.start stored) bursts ending).state.stored
          table.count d ≤ 1 ∧ ((∀ k, fails k = none) → table.count d = 1) := by
  obtain ⟨d, hrow, hheld⟩ := exists_ofRow h
  refine ⟨d, hrow, hheld, fun other hother => ⟨?same, ?once⟩⟩
  case same =>
    obtain ⟨c, hread, hc⟩ := exists_ofRow hother
    rw [hread, hc.unique hheld]
  case once =>
    intro fails capacity stored bursts ending hcapacity hstored hmem _ table
    have htable : table = ((diffsIn bursts.flatten).foldl (Extraction.persist fails)
        (.start stored)).stored :=
      congrArg Extraction.stored (Extraction.state_run hcapacity _ bursts ending)
    have hnodup : table.Nodup := htable ▸ Extraction.nodup_foldl_persist hstored _
    have hsent : d ∈ diffsIn bursts.flatten :=
      List.mem_filterMap.2 ⟨_, hmem, by rw [hrow]; rfl⟩
    refine ⟨List.nodup_iff_count_le_one.1 hnodup d, fun hfails => ?_⟩
    exact List.count_eq_one_of_mem hnodup (htable ▸ Extraction.mem_stored_foldl hfails hsent)

/-- Digits of either case behind either mark or none, an odd number of them and none at all, zeros and
blanks around them, and a plus sign. -/
theorem ofRow_of_spelledBy_sample :
    let n : RowNumbers := ⟨0xABC, 7, 300, 0x80, 0⟩
    let row := ["abc", " 0x07", "+300", "0X80 ", ""]
    let other := ["0X000aBc\t", "7", "0300", "080", "0x"]
    n.SpelledBy row ∧ n.SpelledBy other ∧ ∃ d, Diff.ofRow row = .ok d ∧ Diff.ofRow other = .ok d ∧
      (Extraction.run (fun _ => none) 1 (.start []) [[Diff.ofRow row, Diff.ofRow other]]
        .waits).state.stored.count d = 1 := by
  intro n row other
  have hrow : n.SpelledBy row := by
    refine .intro ?_ ?_ ?_ (by decide) ?_ ?_
    · exact ⟨[], ['a', 'b', 'c'], [10, 11, 12], by decide⟩
    · exact ⟨['0', 'x'], ['0', '7'], [0, 7], by decide⟩
    · exact ⟨['+'], ['3', '0', '0'], [3, 0, 0], by decide⟩
    · exact ⟨['0', 'X'], ['8', '0'], [8, 0], by decide⟩
    · exact ⟨[], [], [], by decide⟩
  have hother : n.SpelledBy other := by
    refine .intro ?_ ?_ ?_ (by decide) ?_ ?_
    · exact ⟨['0', 'X'], ['0', '0', '0', 'a', 'B', 'c'], [0, 0, 0, 10, 11, 12], by decide⟩
    · exact ⟨[], ['7'], [7], by decide⟩
    · exact ⟨[], ['0', '3', '0', '0'], [0, 3, 0, 0], by decide⟩
    · exact ⟨[], ['0', '8', '0'], [0, 8, 0], by decide⟩
    · exact ⟨['0', 'x'], [], [], by decide⟩
  obtain ⟨d, hd, -, hall⟩ := ofRow_of_spelledBy hrow
  obtain ⟨hd', honce⟩ := hall other hother
  have htable := honce (fun _ => none) 1 [] [[Diff.ofRow row, Diff.ofRow other]] .waits (by decide)
    List.nodup_nil (by simp) (by simp)
  exact ⟨hrow, hother, d, hd, hd', htable.2 fun _ => rfl⟩

end RowNumbers

end SlotIndex
