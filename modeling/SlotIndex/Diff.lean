import SlotIndex.Error

/-!
# Storage diffs

One change of one storage slot, and the same with the row id that it has in the diff table.

* `Diff`, `StoredDiff`.
* `DiffOrigin`: whether a diff reaches the watcher for the first time or from the retry queue.
-/

namespace SlotIndex

/-- One change of one slot. The five parts together identify it. -/
structure Diff where
  /-- The hash of the contract's address. -/
  account : Word
  blockHash : Word
  height : UInt64
  key : Word
  value : Word
deriving DecidableEq

/-- The id of a row of the diff table. -/
abbrev DiffId := Int

/-- A diff with the id of its row. -/
structure StoredDiff where
  id : DiffId
  diff : Diff
deriving DecidableEq

/-- Where a diff that is handed to the watcher comes from. -/
inductive DiffOrigin where
  | live
  | queue
deriving DecidableEq

end SlotIndex
