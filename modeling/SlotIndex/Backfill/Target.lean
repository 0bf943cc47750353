import SlotIndex.Backfill.Selection
import SlotIndex.Config.Chain

/-!
# What a backfill is restricted to

The contracts and keys that a command names, as a selection. A contract is named as in the
configuration, or by its address.

* `targetSelection`.
-/

namespace SlotIndex

/-- Why names give no selection. -/
inductive TargetError where
  | keysWithoutContract
  | unknownContract (name chain : String) (fault : Hex.Fault)
deriving DecidableEq

/-- The reasons of an error, outermost first. -/
def TargetError.reasons : TargetError → List Reason
  | .keysWithoutContract => [.text "--key requires --contract"]
  | .unknownContract name chain fault =>
    [.text s!"'{name}' is neither a contract of chain {chain} nor an address",
      .text fault.message]

/-- The address of a contract that is named as in the configuration or by its address. -/
def contractAddress (chain : Chain) (name : String) : Except TargetError Address :=
  match chain.contracts.get? name with
  | some contract => .ok contract.address
  | none => (Address.parse name).mapError (.unknownContract name chain.name)

/-- Add an address with keys to a selection; without keys the whole contract is chosen. -/
def Selection.addTarget (s : Selection) (keys : List Word) (address : Address) : Selection :=
  if keys = [] then s.addContract address.hash else s.addKeys address.hash keys

/-- The selection that contracts and keys give; there is none when no contract is named. -/
def targetSelection (chain : Chain) (contracts : List String) (keys : List Word) :
    Except TargetError (Option Selection) :=
  if contracts = [] then
    if keys = [] then .ok none else .error .keysWithoutContract
  else do
    let addresses ← contracts.mapM (contractAddress chain)
    return some (addresses.foldl (fun s a => s.addTarget keys a) .empty)

end SlotIndex
