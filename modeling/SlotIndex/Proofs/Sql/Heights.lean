import SlotIndex.Proofs.Diff.Sources
import SlotIndex.Proofs.Slot.Aliases
import SlotIndex.Sql.ValueRows

/-!
# Heights in rows of values

A height is an unsigned 64-bit number, and the column that holds it is signed. The parameter that is bound
to the column has the bits of the height. It is the height itself below `2 ^ 63`; from there on it is
negative, so that the rows of such blocks come before those of all earlier blocks.

* `Operation.boundTo`: what is bound in place of the value of a column.
* `bmod_height`: the signed number with the bits of a height; `bmod_height_lt_iff`: two of them in order.
* `boundTo_block_height`: what is bound to the column of the height.
* `exists_read_height`: every height can be read, from a row and from a state diff.
* **`height_kept_iff`**; `height_lost`: a height from a row that is bound to a negative number.
-/

namespace SlotIndex

open scoped CoreNat

namespace Sql.Operation

/-- The columns of a write, in the order of its values. -/
def columns : Operation → List String
  | .upsert _ columns _ _ _ => columns
  | .update _ set condition => set.map Assignment.column ++ [condition.column]
  | .delete _ condition => [condition.column]

/-- What is bound in place of the value of a column. -/
def boundTo (op : Operation) (column : String) : Option Param :=
  (op.columns.zip op.statement.params).lookup column

end Sql.Operation

/-! ## Bound heights -/

/-- The signed number with the bits of a height. -/
theorem bmod_height (height : UInt64) : (height.toNat : Int).bmod UInt64.size =
    if height.toNat < 2 ^ (63 : Nat) then (height.toNat : Int) else height.toNat - UInt64.size := by
  have hlt := height.toNat_lt
  rw [Int.bmod_def, show UInt64.size = 18446744073709551616 from rfl]
  split_ifs <;> omega

/-- It is the height below `2 ^ 63`. -/
theorem bmod_height_eq_iff (height : UInt64) :
    (height.toNat : Int).bmod UInt64.size = height.toNat ↔ height.toNat < 2 ^ (63 : Nat) := by
  have hsize : UInt64.size = 18446744073709551616 := rfl
  rw [bmod_height]
  split_ifs <;> omega

/-- It is negative from there on. -/
theorem bmod_height_nonneg_iff (height : UInt64) :
    0 ≤ (height.toNat : Int).bmod UInt64.size ↔ height.toNat < 2 ^ (63 : Nat) := by
  have hlt := height.toNat_lt
  have hsize : UInt64.size = 18446744073709551616 := rfl
  rw [bmod_height]
  split_ifs <;> omega

/-- It grows with the height, but for the step to the negative numbers. -/
theorem bmod_height_lt_iff {height height' : UInt64} (h : height < height') :
    (height.toNat : Int).bmod UInt64.size < (height'.toNat : Int).bmod UInt64.size ↔
      (height.toNat < 2 ^ (63 : Nat) → height'.toNat < 2 ^ (63 : Nat)) := by
  have hlt := height'.toNat_lt
  have hsize : UInt64.size = 18446744073709551616 := rfl
  rw [UInt64.lt_iff_toNat_lt] at h
  rw [bmod_height, bmod_height]
  split_ifs <;> omega

variable {contract : String} {d : StoredDiff} {m : Metadata} {value : DecodedValue} {op : Sql.Operation}

/-- What is bound to the column of the height, in every row of a decoded diff. -/
theorem boundTo_block_height (h : op ∈ valueOperations contract d m value) :
    op.boundTo "block_height" = some (.int64 ((d.diff.height.toNat : Int).bmod UInt64.size)) := by
  obtain ⟨named, -, rfl⟩ := List.mem_map.1 h
  rfl

/-! ## Heights that are read -/

/-- Every height is that of a diff that can be read from a row, and of one that can be read from a state
diff. -/
theorem exists_read_height (height : UInt64) :
    (∃ row x, Diff.ofRow row = .ok x ∧ x.height = height) ∧
      ∃ (d : StateDiff) (account : AccountDiff) (entry : StorageEntry) (x : Diff),
        d.diffOf account entry = .ok x ∧ x.height = height := by
  constructor
  · let c : Change := ⟨default, default, height, default, default⟩
    exact ⟨c.row, c.diff, c.ofRow_of_isWrittenIn c.isWrittenIn_row, rfl⟩
  · exact ⟨⟨height, default, [], [], []⟩, ⟨[], [], []⟩, ⟨[], [0x80]⟩, _, rfl, rfl⟩

/-- **A height keeps its value exactly below `2 ^ 63`.** In every row of a decoded diff a number is bound to
the column of the height. It is the height if that is below `2 ^ 63`, and else it is negative. So the rows
of two blocks are in the order of the blocks unless only the later one is that high. -/
theorem height_kept_iff (contract : String) (d : StoredDiff) (m : Metadata) (value : DecodedValue) :
    ∀ op ∈ valueOperations contract d m value, ∃ n : Int, op.boundTo "block_height" = some (.int64 n) ∧
      (n = d.diff.height.toNat ↔ d.diff.height.toNat < 2 ^ (63 : Nat)) ∧
      (0 ≤ n ↔ d.diff.height.toNat < 2 ^ (63 : Nat)) ∧
      ∀ contract' d' m' value', ∀ op' ∈ valueOperations contract' d' m' value',
        d.diff.height < d'.diff.height → ∃ n' : Int, op'.boundTo "block_height" = some (.int64 n') ∧
          (n < n' ↔ (d.diff.height.toNat < 2 ^ (63 : Nat) → d'.diff.height.toNat < 2 ^ (63 : Nat))) := by
  intro op hop
  refine ⟨_, boundTo_block_height hop, bmod_height_eq_iff _, bmod_height_nonneg_iff _, ?_⟩
  intro contract' d' m' value' op' hop' hheight
  exact ⟨_, boundTo_block_height hop', bmod_height_lt_iff hheight⟩

/-- Metadata of a plain number. -/
def sampleBalance : Metadata := Lookup.sampleMetadata "balance"

theorem mem_valueOperations_single (x : Diff) : valueOperation "token" ⟨77, x⟩ sampleBalance ("balance", "4") ∈
    valueOperations "token" ⟨77, x⟩ sampleBalance (.single "4") := List.mem_singleton_self _

/-- The highest block whose height is kept. -/
theorem height_kept_iff_last :
    let x : Diff := ⟨default, default, 9223372036854775807, default, default⟩
    let op := valueOperation "token" ⟨77, x⟩ sampleBalance ("balance", "4")
    op ∈ valueOperations "token" ⟨77, x⟩ sampleBalance (.single "4") ∧
      op.boundTo "block_height" = some (.int64 9223372036854775807) := by
  intro x op
  obtain ⟨n, hbound, hkept, -⟩ :=
    height_kept_iff "token" ⟨77, x⟩ sampleBalance (.single "4") op (mem_valueOperations_single x)
  obtain rfl := hkept.2 (by decide)
  exact ⟨mem_valueOperations_single x, hbound⟩

/-- A height that is read from a row, and from a state diff, is bound to a negative number. -/
theorem height_lost :
    let entry : StorageEntry := ⟨[4], [0x2a]⟩
    let account : AccountDiff := ⟨(Address.ofBytes [0x2a]).hash.bytes, [], [entry]⟩
    let d : StateDiff := ⟨9223372036854775808, Word.ofNat 7, [account], [], []⟩
    ∃ x, Diff.ofRow ["0x2a", "0x07", "9223372036854775808", "0x4", "0x2a"] = .ok x ∧
      d.diffOf account entry = .ok x ∧ x.height = 9223372036854775808 ∧
      ∃ op ∈ valueOperations "token" ⟨77, x⟩ sampleBalance (.single "4"),
        op.boundTo "block_height" = some (.int64 (-9223372036854775808)) := by
  intro entry account d
  let c : Change := ⟨Address.ofBytes [0x2a], Word.ofNat 7, 9223372036854775808, Word.ofNat 4, Word.ofNat 42⟩
  have hreported : c.IsReportedIn d account entry :=
    ⟨rfl, rfl, rfl, ⟨31, by decide⟩, 31, [0x2a], by decide, by decide⟩
  have hwritten : c.IsWrittenIn ["0x2a", "0x07", "9223372036854775808", "0x4", "0x2a"] := by
    refine .intro ?_ ?_ ?_ ?_ ?_
    · exact ⟨['0', 'x'], ['2', 'a'], [2, 10], by decide⟩
    · exact ⟨['0', 'x'], ['0', '7'], [0, 7], by decide⟩
    · exact ⟨[], "9223372036854775808".toList,
        [9, 2, 2, 3, 3, 7, 2, 0, 3, 6, 8, 5, 4, 7, 7, 5, 8, 0, 8], by decide⟩
    · exact ⟨['0', 'x'], ['4'], [4], by decide⟩
    · exact ⟨['0', 'x'], ['2', 'a'], [2, 10], by decide⟩
  have hbound : (c.diff.height.toNat : Int).bmod UInt64.size = -9223372036854775808 := by
    rw [bmod_height, if_neg (by decide)]
    rfl
  refine ⟨c.diff, Change.ofRow_of_isWrittenIn hwritten, Change.diffOf_of_isReportedIn hreported, rfl,
    _, mem_valueOperations_single c.diff, ?_⟩
  rw [boundTo_block_height (mem_valueOperations_single c.diff), hbound]

end SlotIndex
