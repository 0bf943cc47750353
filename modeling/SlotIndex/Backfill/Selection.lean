import SlotIndex.Table
import SlotIndex.Word

/-!
# Selections

Which contracts and which of their slots a backfill is to keep. A contract without keys of its own
keeps every slot.

* `Selection.addContract`, `Selection.addKeys`.
* `Selection.wantsAccount`, `Selection.wantsSlot`.
* `Selection.sameAs`: whether two selections hold the same contracts with the same keys.
-/

namespace SlotIndex

/-- The chosen contracts, by the hash of their address, each with its chosen keys. -/
structure Selection where
  contracts : Table Word (List Word)

namespace Selection

/-- No contract is chosen. -/
def empty : Selection := ⟨Table.empty⟩

/-- The keys of a contract; a contract that is not chosen has none. -/
def keysOf (s : Selection) (account : Word) : List Word :=
  (s.contracts.get? account).getD []

/-- Choose a contract. Keys that it has already stay. -/
def addContract (s : Selection) (account : Word) : Selection :=
  ⟨s.contracts.insert account (s.keysOf account)⟩

/-- Choose keys of a contract, besides those that it has already. -/
def addKeys (s : Selection) (account : Word) (keys : List Word) : Selection :=
  ⟨s.contracts.insert account
    (keys.foldl (fun ks k => if k ∈ ks then ks else ks ++ [k]) (s.keysOf account))⟩

/-- Whether a contract is chosen. -/
def wantsAccount (s : Selection) (account : Word) : Bool :=
  s.contracts.contains account

/-- Whether a slot is chosen: its contract is, and has no keys or this key. -/
def wantsSlot (s : Selection) (account key : Word) : Bool :=
  match s.contracts.get? account with
  | none => false
  | some keys => keys.isEmpty || keys.contains key

/-- The number of chosen contracts. -/
def size (s : Selection) : Nat := s.contracts.size

/-- Whether two lists have the same members. -/
def sameKeys (ks ls : List Word) : Bool :=
  ks.all ls.contains && ls.all ks.contains

/-- Whether two selections hold the same contracts with the same keys. -/
def sameAs (s t : Selection) : Bool :=
  s.size = t.size && s.contracts.entries.all fun e =>
    match t.contracts.get? e.1 with
    | none => false
    | some keys => sameKeys e.2 keys

end Selection

end SlotIndex
