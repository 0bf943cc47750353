import SlotIndex.Diff

/-!
# Loading current values

The current values of all known slots of the watched contracts are read from the node at one height
and offered to the diff table. The first call that fails ends the run.

* `ValueSource`: what the run works with, over an arbitrary state of the world.
* `ValueLoad.run`: the number of slots that were read.
-/

namespace SlotIndex

/-- Node, key tables and diff table, as functions of the state `σ` of the world. -/
structure ValueSource (σ T : Type) where
  address : T → Address
  /-- The known keys of a transformer in ascending order; there are none for a transformer without a
  key table. -/
  keys : T → Option (σ → Except StorageError (List Word) × σ)
  blockHash : UInt64 → σ → Except StorageError Word × σ
  storageAt : Address → Word → UInt64 → σ → Except StorageError Word × σ
  /-- Offer a value to the diff table. -/
  store : Diff → σ → Except StorageError Unit × σ

namespace ValueLoad

variable {σ T : Type} (c : ValueSource σ T)

/-- Read one slot and offer its value. -/
def loadKey (address : Address) (blockHash : Word) (height : UInt64) (key : Word) (world : σ) :
    Except StorageError Unit × σ :=
  match c.storageAt address key height world with
  | (.error e, world) => (.error e, world)
  | (.ok value, world) => c.store ⟨address.hash, blockHash, height, key, value⟩ world

/-- Read slots one after the other. -/
def loadKeys (address : Address) (blockHash : Word) (height : UInt64) :
    List Word → σ → Except StorageError Unit × σ
  | [], world => (.ok (), world)
  | key :: rest, world =>
    match loadKey c address blockHash height key world with
    | (.error e, world) => (.error e, world)
    | (.ok (), world) => loadKeys address blockHash height rest world

/-- Read all slots of transformers one after the other, with the number read before. -/
def loadAll (blockHash : Word) (height : UInt64) :
    (total : Nat) → List T → σ → Except StorageError Nat × σ
  | total, [], world => (.ok total, world)
  | total, t :: rest, world =>
    match c.keys t with
    | none => loadAll blockHash height total rest world
    | some keys =>
      match keys world with
      | (.error e, world) => (.error e, world)
      | (.ok keys, world) =>
        match loadKeys c (c.address t) blockHash height keys world with
        | (.error e, world) => (.error e, world)
        | (.ok (), world) => loadAll blockHash height (total + keys.length) rest world

/-- Read all slots of transformers at a height. -/
def run (transformers : List T) (height : UInt64) (world : σ) : Except StorageError Nat × σ :=
  match c.blockHash height world with
  | (.error e, world) => (.error e, world)
  | (.ok blockHash, world) => loadAll c blockHash height 0 transformers world

end ValueLoad

end SlotIndex
