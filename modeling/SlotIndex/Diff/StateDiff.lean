import SlotIndex.Diff

/-!
# State diffs

What a node reports about one block: the accounts that the block created, deleted and updated, each
with the storage entries that changed. In binary form a state diff is a record of its number, its
hash and three lists of accounts.

* `StateDiff`, `AccountDiff`, `StorageEntry`.
* `StateDiff.encode`, `StateDiff.decode`: the binary form.
* `StateDiff.diffs`: one diff, or the error of its value, for each storage entry.
-/

namespace SlotIndex

/-- A changed slot. The value is itself in binary form. -/
structure StorageEntry where
  key : List UInt8
  value : List UInt8
deriving DecidableEq

/-- The changes of one account. The key is the hash of its address. -/
structure AccountDiff where
  key : List UInt8
  value : List UInt8
  storage : List StorageEntry
deriving DecidableEq

/-- The changes of one block. -/
structure StateDiff where
  number : UInt64
  hash : Word
  created : List AccountDiff
  deleted : List AccountDiff
  updated : List AccountDiff
deriving DecidableEq

/-! ## Binary form -/

namespace StorageEntry

/-- The binary form of a storage entry. -/
def encode (e : StorageEntry) : List UInt8 :=
  Rlp.writeList (Rlp.writeString e.key ++ Rlp.writeString e.value)

/-- The fields of a storage entry. -/
def readFields : Rlp.Reader StorageEntry := fun input => do
  let (key, input) ← Rlp.readString input
  let (value, input) ← Rlp.readString input
  return (⟨key, value⟩, input)

/-- A storage entry. -/
def read : Rlp.Reader StorageEntry := Rlp.readRecord readFields

end StorageEntry

namespace AccountDiff

/-- The binary form of the changes of an account. -/
def encode (a : AccountDiff) : List UInt8 :=
  Rlp.writeList (Rlp.writeString a.key ++ Rlp.writeString a.value
    ++ Rlp.writeList (a.storage.flatMap StorageEntry.encode))

/-- The fields of the changes of an account. -/
def readFields : Rlp.Reader AccountDiff := fun input => do
  let (key, input) ← Rlp.readString input
  let (value, input) ← Rlp.readString input
  let (storage, input) ← Rlp.readList StorageEntry.read input
  return (⟨key, value, storage⟩, input)

/-- The changes of an account. -/
def read : Rlp.Reader AccountDiff := Rlp.readRecord readFields

end AccountDiff

namespace StateDiff

/-- The binary form of a list of accounts. -/
def encodeAccounts (accounts : List AccountDiff) : List UInt8 :=
  Rlp.writeList (accounts.flatMap AccountDiff.encode)

/-- The binary form of a state diff. -/
def encode (d : StateDiff) : List UInt8 :=
  Rlp.writeList (Rlp.writeNumber d.number.toNat ++ Rlp.writeString d.hash.bytes
    ++ encodeAccounts d.created ++ encodeAccounts d.deleted ++ encodeAccounts d.updated)

/-- The fields of a state diff. -/
def readFields : Rlp.Reader StateDiff := fun input => do
  let (number, input) ← Rlp.readNumber input
  let (hash, input) ← Rlp.readWord input
  let (created, input) ← Rlp.readList AccountDiff.read input
  let (deleted, input) ← Rlp.readList AccountDiff.read input
  let (updated, input) ← Rlp.readList AccountDiff.read input
  return (⟨number, hash, created, deleted, updated⟩, input)

/-- The state diff that bytes form. -/
def decode (bytes : List UInt8) : Except Rlp.Fault StateDiff :=
  Rlp.readExactly (Rlp.readRecord readFields) bytes

/-! ## Diffs -/

/-- The accounts: created ones first, then updated ones, then deleted ones. -/
def accounts (d : StateDiff) : List AccountDiff :=
  d.created ++ d.updated ++ d.deleted

/-- The diff of one storage entry of an account. -/
def diffOf (d : StateDiff) (account : AccountDiff) (entry : StorageEntry) :
    Except StorageError Diff :=
  match Rlp.readExactly Rlp.readString entry.value with
  | .error fault => .error (.rlp fault)
  | .ok value =>
    .ok ⟨Word.ofBytes account.key, d.hash, d.number, Word.ofBytes entry.key, Word.ofBytes value⟩

/-- The storage entries with their accounts, in the order of the accounts. -/
def entries (d : StateDiff) : List (AccountDiff × StorageEntry) :=
  d.accounts.flatMap fun account => account.storage.map fun entry => (account, entry)

/-- One diff, or the error of its value, for each storage entry. -/
def diffs (d : StateDiff) : List (Except StorageError Diff) :=
  d.entries.map fun e => d.diffOf e.1 e.2

end StateDiff

end SlotIndex
