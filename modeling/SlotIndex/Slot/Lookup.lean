import SlotIndex.Keccak
import SlotIndex.Slot.Metadata

/-!
# Looking up keys

The key table that a contract's transformer works with. It is loaded when a key is asked for that it
does not know, and whenever all keys are listed. Every key is known under its hash too, since some
sources report hashed keys.

* `Lookup.ofLoaded`, `Lookup.IsAfter`: the table after a load, in one order of the loaded keys and in any.
* `Lookup.find`: the metadata of a key, with at most one load.
* `Lookup.list`: all loaded keys in ascending order, after a load.
-/

namespace SlotIndex

/-- What is known about the keys of one contract. -/
structure Lookup where
  /-- Metadata by key and by hash of a key. -/
  known : Table Word Metadata
  /-- The loaded keys, in ascending order. -/
  keys : List Word
deriving DecidableEq

/-- What a load yields: the metadata of every key, in any order. -/
abbrev Loaded := Except StorageError (Table Word Metadata)

/-- The answer to a call, the state behind it and the number of loads that it took. -/
structure Answer (α : Type) where
  result : Except StorageError α
  after : Lookup
  loads : Nat

namespace Lookup

/-- Nothing is known. -/
def empty : Lookup := ⟨Table.empty, []⟩

instance : Inhabited Lookup := ⟨empty⟩

/-- A key and its hash are entered, the key last. -/
def enter (known : Table Word Metadata) (e : Word × Metadata) : Table Word Metadata :=
  (known.insert e.1.hash e.2).insert e.1 e.2

/-- The state after a load: entries are made in the order in which the load lists its keys. -/
def ofLoaded (loaded : Table Word Metadata) : Lookup where
  known := loaded.entries.foldl enter Table.empty
  keys := loaded.keys.mergeSort

/-- Whether this can be the state after a load. Nothing fixes the order of its entries, which may be another
one whenever the same keys are loaded. -/
def IsAfter (s : Lookup) (loaded : Table Word Metadata) : Prop :=
  ∃ listed : Table Word Metadata, listed.entries.Perm loaded.entries ∧ s = ofLoaded listed

/-- The metadata of a key. A key that is not known causes one load. -/
def find (s : Lookup) (load : Loaded) (key : Word) : Answer Metadata :=
  match s.known.get? key with
  | some metadata => ⟨.ok metadata, s, 0⟩
  | none =>
    match load with
    | .error e => ⟨.error e, s, 1⟩
    | .ok loaded =>
      let t := ofLoaded loaded
      match t.known.get? key with
      | some metadata => ⟨.ok metadata, t, 1⟩
      | none => ⟨.error (.keyNotFound key), t, 1⟩

/-- All keys in ascending order, after one load. -/
def list (s : Lookup) (load : Loaded) : Answer (List Word) :=
  match load with
  | .error e => ⟨.error e, s, 1⟩
  | .ok loaded => ⟨.ok (ofLoaded loaded).keys, ofLoaded loaded, 1⟩

end Lookup

end SlotIndex
