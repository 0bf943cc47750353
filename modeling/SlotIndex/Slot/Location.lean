import SlotIndex.Keccak

/-!
# Locations of slots

Where the entries of mappings and the members of structs stand in a contract's storage.

* `mappingSlot`: the entry of a key in the mapping at an index.
* `nestedSlot`: the entry behind several keys, outermost first; `nestedSlot_cons` and `nestedSlot_append` take
  chains of keys apart.
* `memberSlot`: the word some places after a slot.
-/

namespace SlotIndex

/-- The slot of a key in the mapping declared at an index: the hash of the two words together. -/
def mappingSlot (key index : Word) : Word :=
  keccak256 (key.bytes ++ index.bytes)

/-- The slot of a chain of keys, outermost first, in the mapping declared at an index. -/
def nestedSlot (keys : List Word) (index : Word) : Word :=
  keys.foldl (fun slot key => mappingSlot key slot) index

theorem nestedSlot_cons (key : Word) (keys : List Word) (index : Word) :
    nestedSlot (key :: keys) index = nestedSlot keys (mappingSlot key index) := by
  rw [nestedSlot, List.foldl_cons, nestedSlot]

theorem nestedSlot_append (keys more : List Word) (index : Word) :
    nestedSlot (keys ++ more) index = nestedSlot more (nestedSlot keys index) :=
  List.foldl_append

/-- The slot of a struct member, by its offset from the slot of the struct. -/
def memberSlot (base : Word) (offset : UInt64) : Word :=
  base.add offset.toNat

end SlotIndex
