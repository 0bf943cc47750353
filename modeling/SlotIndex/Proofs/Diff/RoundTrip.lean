import SlotIndex.Diff.Payload
import SlotIndex.Proofs.Rlp.Codec

/-!
# The binary form of state diffs

Each level of a state diff, from a storage entry up to the whole, is a record of strings, numbers and
lists, and so has a reader and a writer that belong together. Two statements about payloads follow.

* `StorageEntry.codec`, `AccountDiff.codec`, `StateDiff.codec`.
* **`Payload.decode_encode`**: what is written for a state diff is read back.
* **`Payload.encode_of_decode`**: nothing else is read, so that a state diff has one binary form.
-/

namespace SlotIndex

open Rlp

namespace StorageEntry

theorem codec_fields : Codec readFields fun e => writeString e.key ++ writeString e.value where
  read_write e rest h := by
    rw [List.length_append] at h
    rw [readFields, List.append_assoc]
    refine (codec_string.read_bind _ _ _ (by omega)).trans ?_
    exact codec_string.read_bind _ _ _ (by omega)
  write_read {e input rest} h := by
    obtain ⟨key, _, rfl, h₁⟩ := codec_string.of_bind_eq_ok h
    obtain ⟨value, _, rfl, h₂⟩ := codec_string.of_bind_eq_ok h₁
    cases h₂
    rw [List.append_assoc]
  ne_nil e := by simp [writeString_ne_nil]

theorem codec : Codec read encode := codec_fields.record

end StorageEntry

namespace AccountDiff

theorem codec_fields : Codec readFields fun a => writeString a.key ++ writeString a.value ++
    writeList (a.storage.flatMap StorageEntry.encode) where
  read_write a rest h := by
    simp only [List.length_append] at h
    simp only [readFields, List.append_assoc]
    refine (codec_string.read_bind _ _ _ (by omega)).trans ?_
    refine (codec_string.read_bind _ _ _ (by omega)).trans ?_
    exact StorageEntry.codec.list.read_bind _ _ _ (by omega)
  write_read {a input rest} h := by
    obtain ⟨key, _, rfl, h₁⟩ := codec_string.of_bind_eq_ok h
    obtain ⟨value, _, rfl, h₂⟩ := codec_string.of_bind_eq_ok h₁
    obtain ⟨storage, _, rfl, h₃⟩ := StorageEntry.codec.list.of_bind_eq_ok h₂
    cases h₃
    simp only [List.append_assoc]
  ne_nil a := by simp [writeString_ne_nil]

theorem codec : Codec read encode := codec_fields.record

end AccountDiff

namespace StateDiff

theorem codec_accounts : Codec (readList AccountDiff.read) encodeAccounts := AccountDiff.codec.list

theorem codec_fields : Codec readFields fun d => writeNumber d.number.toNat ++
    writeString d.hash.bytes ++ encodeAccounts d.created ++ encodeAccounts d.deleted ++
      encodeAccounts d.updated where
  read_write d rest h := by
    simp only [List.length_append] at h
    simp only [readFields, List.append_assoc]
    refine (codec_number.read_bind _ _ _ (by omega)).trans ?_
    refine (codec_word.read_bind _ _ _ (by omega)).trans ?_
    refine (codec_accounts.read_bind _ _ _ (by omega)).trans ?_
    refine (codec_accounts.read_bind _ _ _ (by omega)).trans ?_
    exact codec_accounts.read_bind _ _ _ (by omega)
  write_read {d input rest} h := by
    obtain ⟨number, _, rfl, h₁⟩ := codec_number.of_bind_eq_ok h
    obtain ⟨hash, _, rfl, h₂⟩ := codec_word.of_bind_eq_ok h₁
    obtain ⟨created, _, rfl, h₃⟩ := codec_accounts.of_bind_eq_ok h₂
    obtain ⟨deleted, _, rfl, h₄⟩ := codec_accounts.of_bind_eq_ok h₃
    obtain ⟨updated, _, rfl, h₅⟩ := codec_accounts.of_bind_eq_ok h₄
    cases h₅
    simp only [List.append_assoc]
  ne_nil d := by simp [writeString_ne_nil]

theorem codec : Codec (readRecord readFields) encode := codec_fields.record

end StateDiff

namespace Payload

theorem decode_eq_ok {p : Payload} {d : StateDiff} :
    p.decode = .ok d ↔ StateDiff.decode p.stateDiff = .ok d := by
  rw [decode]
  cases StateDiff.decode p.stateDiff with
  | error fault => exact iff_of_false (fun h => by cases h) (fun h => by cases h)
  | ok x => exact ⟨fun h => by cases h; rfl, fun h => by cases h; rfl⟩

/-- **A state diff is read back** from a payload with its binary form, whatever the block. -/
theorem decode_encode (block : List UInt8) (d : StateDiff) (h : d.encode.length < UInt64.size) :
    Payload.decode ⟨block, d.encode⟩ = .ok d :=
  decode_eq_ok.2 (readExactly_write StateDiff.codec h)

/-- A block with a header of its own at each level: a number above `0x7f`, a key of 56 bytes, values
on both sides of `0x80` and empty ones. -/
def sampleDiff : StateDiff where
  number := 0x80
  hash := Word.ofNat 7
  created := [⟨List.replicate 56 1, [0x7f], [⟨[0x80], []⟩, ⟨[], [0]⟩]⟩, ⟨[], [], []⟩]
  deleted := []
  updated := [⟨List.replicate 55 0, [0x81], []⟩]

theorem decode_encode_sample : sampleDiff.encode.length < UInt64.size ∧
    Payload.decode ⟨[], sampleDiff.encode⟩ = .ok sampleDiff :=
  have h : sampleDiff.encode.length < UInt64.size := by decide +kernel
  ⟨h, decode_encode [] sampleDiff h⟩

/-- **Only binary forms are read**: the bytes of a state diff that is accepted are written for it
again, and no other bytes are accepted as the same state diff. -/
theorem encode_of_decode {p : Payload} {d : StateDiff} (h : p.decode = .ok d) :
    d.encode = p.stateDiff ∧ ∀ q : Payload, q.decode = .ok d → q.stateDiff = p.stateDiff := by
  have hp := readExactly_eq_ok StateDiff.codec (decode_eq_ok.1 h)
  refine ⟨hp.symm, fun q hq => ?_⟩
  have hq := readExactly_eq_ok StateDiff.codec (decode_eq_ok.1 hq)
  exact hq.trans hp.symm

theorem encode_of_decode_short :
    Payload.decode ⟨[], [0xea, 5, 0xa0] ++ List.replicate 31 0 ++
        [1, 0xc0, 0xc5, 0xc4, 0x80, 0x81, 0x80, 0xc0, 0xc0]⟩ =
      .ok ⟨5, Word.ofNat 1, [], [⟨[], [0x80], []⟩], []⟩ ∧
    StateDiff.encode ⟨5, Word.ofNat 1, [], [⟨[], [0x80], []⟩], []⟩ =
      [0xea, 5, 0xa0] ++ List.replicate 31 0 ++
        [1, 0xc0, 0xc5, 0xc4, 0x80, 0x81, 0x80, 0xc0, 0xc0] :=
  have h : Payload.decode ⟨[], [0xea, 5, 0xa0] ++ List.replicate 31 0 ++
        [1, 0xc0, 0xc5, 0xc4, 0x80, 0x81, 0x80, 0xc0, 0xc0]⟩ =
      .ok ⟨5, Word.ofNat 1, [], [⟨[], [0x80], []⟩], []⟩ := by rfl
  ⟨h, (encode_of_decode h).1⟩

end Payload

end SlotIndex
