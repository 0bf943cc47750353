import SlotIndex.Proofs.Diff.Entries
import SlotIndex.Proofs.Diff.RoundTrip
import SlotIndex.Proofs.Rlp.Run

/-!
# State diffs that are read to the end

A state diff holds lists of accounts, and these hold lists of storage entries. The items of a list are read
until its payload is used up, and the fields of an item from all that stands behind its header, whatever
length that declares. For no bytes does this go on for ever: each item takes a byte at least.

* `StorageEntry.run`, `AccountDiff.run`, `StateDiff.run`: how they are read, with no bound on the items.
* `StorageEntry.realizes`, `AccountDiff.realizes`, `StateDiff.realizes`.
* **`StateDiff.decode_endsAs`**.
-/

namespace SlotIndex

open Rlp

namespace StorageEntry

/-- How a storage entry is read. -/
def run : Run StorageEntry :=
  .Record (.Then (.Plain readString) fun key => .Then (.Plain readString) fun value =>
    .Plain fun input => pure (⟨key, value⟩, input))

theorem realizes : RealizesItem run read := by
  refine Realizes.record ?_
  have hstring := realizes_plain advances_string.isLocal
  exact hstring.bind fun key => hstring.bind fun value => realizes_plain (isLocal_pure _)

theorem run_count {input rest : List UInt8} {e : StorageEntry} {n : Nat}
    (h : run input (.ok (e, rest)) n) : n = 0 := by
  obtain ⟨_, hfields⟩ := h.exists_of_ok
  obtain ⟨_, _, _, _, hkey, h₁, rfl⟩ := hfields.exists_of_ok
  obtain ⟨_, _, _, _, hvalue, hend, rfl⟩ := h₁.exists_of_ok
  rw [hkey.eq_read.2, hvalue.eq_read.2, hend.eq_read.2]

end StorageEntry

namespace AccountDiff

/-- How the changes of an account are read. -/
def run : Run AccountDiff :=
  .Record (.Then (.Plain readString) fun key => .Then (.Plain readString) fun value =>
    .Then (.Listed StorageEntry.run) fun storage =>
    .Plain fun input => pure (⟨key, value, storage⟩, input))

theorem realizes : RealizesItem run read := by
  refine Realizes.record ?_
  have hstring := realizes_plain advances_string.isLocal
  exact hstring.bind fun key => hstring.bind fun value => StorageEntry.realizes.list.bind fun storage =>
    realizes_plain (isLocal_pure _)

theorem run_count {input rest : List UInt8} {a : AccountDiff} {n : Nat}
    (h : run input (.ok (a, rest)) n) : n = a.storage.length := by
  obtain ⟨_, hfields⟩ := h.exists_of_ok
  obtain ⟨key, _, _, _, hkey, h₁, rfl⟩ := hfields.exists_of_ok
  obtain ⟨value, _, _, _, hvalue, h₂, rfl⟩ := h₁.exists_of_ok
  obtain ⟨storage, _, _, _, hstorage, hend, rfl⟩ := h₂.exists_of_ok
  cases hend.eq_read.1
  rw [hkey.eq_read.2, hvalue.eq_read.2, hend.eq_read.2, hstorage.count_eq StorageEntry.run_count,
    countItems_zero]
  simp only [Nat.zero_add, Nat.add_zero]

end AccountDiff

namespace StateDiff

/-- How a state diff is read. -/
def run : Run StateDiff :=
  .Record (.Then (.Plain readNumber) fun number => .Then (.Plain readWord) fun hash =>
    .Then (.Listed AccountDiff.run) fun created => .Then (.Listed AccountDiff.run) fun deleted =>
    .Then (.Listed AccountDiff.run) fun updated =>
    .Plain fun input => pure (⟨number, hash, created, deleted, updated⟩, input))

theorem realizes : RealizesItem run (readRecord readFields) := by
  refine Realizes.record ?_
  have haccounts := AccountDiff.realizes.list
  exact (realizes_plain isLocal_number).bind fun number => (realizes_plain isLocal_word).bind fun hash =>
    haccounts.bind fun created => haccounts.bind fun deleted => haccounts.bind fun updated =>
    realizes_plain (isLocal_pure _)

theorem length_entries (d : StateDiff) :
    d.entries.length = (d.accounts.flatMap AccountDiff.storage).length :=
  length_flatMap_storage (fun _ => List.length_map _) d.accounts

theorem run_count {input rest : List UInt8} {d : StateDiff} {n : Nat}
    (h : run input (.ok (d, rest)) n) : n = d.accounts.length + d.entries.length := by
  obtain ⟨_, hfields⟩ := h.exists_of_ok
  obtain ⟨number, _, _, _, hnumber, h₁, rfl⟩ := hfields.exists_of_ok
  obtain ⟨hash, _, _, _, hhash, h₂, rfl⟩ := h₁.exists_of_ok
  obtain ⟨created, _, _, _, hcreated, h₃, rfl⟩ := h₂.exists_of_ok
  obtain ⟨deleted, _, _, _, hdeleted, h₄, rfl⟩ := h₃.exists_of_ok
  obtain ⟨updated, _, _, _, hupdated, hend, rfl⟩ := h₄.exists_of_ok
  cases hend.eq_read.1
  rw [hnumber.eq_read.2, hhash.eq_read.2, hend.eq_read.2, hcreated.count_eq AccountDiff.run_count,
    hdeleted.count_eq AccountDiff.run_count, hupdated.count_eq AccountDiff.run_count,
    countItems_length, countItems_length, countItems_length, length_entries]
  simp only [accounts, List.flatMap_append, List.length_append]
  omega

/-- **Reading a state diff comes to an end, whatever the bytes are.** A storage entry or an account that is
read takes at least one byte, leaves all that stands behind what it takes, and is read the same whatever
stands there. If items are read for as long as there are bytes, a list of storage entries, a list of accounts
and a state diff each come to an end, with a result or a fault, and have then begun no more items than there
are bytes: accounts and storage entries together, the one that cannot be read included. If a state diff is
read, these items are its accounts and its storage entries. -/
theorem decode_endsAs :
    Advances StorageEntry.read ∧ Advances AccountDiff.read ∧
    (∀ input, EndsAs (Run.Listed StorageEntry.run) input (readList StorageEntry.read input)) ∧
    (∀ input, EndsAs (Run.Listed AccountDiff.run) input (readList AccountDiff.read input)) ∧
    ∀ bytes, EndsAs (Run.Exactly run) bytes (decode bytes) ∧
      ∀ d n, Run.Exactly run bytes (.ok d) n → n = d.accounts.length + d.entries.length := by
  refine ⟨StorageEntry.realizes.advances, AccountDiff.realizes.advances, fun input => ?_,
    fun input => ?_, fun bytes => ⟨realizes.exactly bytes, fun d n hrun => run_count hrun.of_ok⟩⟩
  · exact StorageEntry.realizes.list.endsAs input
  · exact AccountDiff.realizes.list.endsAs input

/-- An entry whose header declares no payload, with two fields behind it, is begun and refused; a state diff
that is read begins three accounts and two storage entries. -/
theorem decode_endsAs_sample :
    EndsAs (Run.Listed StorageEntry.run) [0xC3, 0xC0, 1, 2] (.error (.lengthMismatch 0 2)) ∧
      Run.Exactly run Payload.sampleDiff.encode (.ok Payload.sampleDiff) 5 := by
  obtain ⟨-, -, hentries, -, hdiff⟩ := decode_endsAs
  refine ⟨hentries [0xC3, 0xC0, 1, 2], ?_⟩
  have hread : decode Payload.sampleDiff.encode = .ok Payload.sampleDiff :=
    readExactly_write codec (by decide +kernel)
  obtain ⟨hends, hcount⟩ := hdiff Payload.sampleDiff.encode
  rw [hread] at hends
  obtain ⟨n, hn⟩ := hends.exists_run
  rwa [hcount _ n hn] at hn

end StateDiff

end SlotIndex
