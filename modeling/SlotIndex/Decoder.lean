import SlotIndex.Config.Contract
import SlotIndex.Diff
import SlotIndex.Slot.Decode
import SlotIndex.Slot.Lookup

/-!
# Decoders

A decoder turns the diffs of one contract into rows of decoded values: it looks up the key of a diff
and decodes its value under the metadata of the key.

* `ValueRow`: one decoded diff.
* `decodeDiff`: the row of a diff.
* `executeDiff`: the same, with the row handed to the value table.
* `Decoder`, `buildDecoders`: the decoders of configured contracts, in the order of their names.
-/

namespace SlotIndex

/-- One decoded diff. -/
structure ValueRow where
  contract : String
  diff : StoredDiff
  metadata : Metadata
  value : DecodedValue
deriving DecidableEq

/-- The row of a diff. A key that is not known causes one load. -/
def decodeDiff (contract : String) (lookup : Lookup) (load : Loaded) (d : StoredDiff) :
    Answer ValueRow :=
  let a := lookup.find load d.diff.key
  ⟨a.result.map fun metadata => ⟨contract, d, metadata, metadata.decode d.diff.value⟩,
    a.after, a.loads⟩

/-- What a decoder does with a diff, over a value table of type `V`. -/
structure Execution (V : Type) where
  result : Except StorageError Unit
  lookup : Lookup
  loads : Nat
  table : V

/-- Decode a diff and hand its row to the value table. Without a row the table is left alone. -/
def executeDiff {V : Type} (contract : String) (create : ValueRow → V → Except StorageError Unit × V)
    (lookup : Lookup) (load : Loaded) (d : StoredDiff) (table : V) : Execution V :=
  let a := decodeDiff contract lookup load d
  match a.result with
  | .error e => ⟨.error e, a.after, a.loads, table⟩
  | .ok row =>
    let (result, table) := create row table
    ⟨result, a.after, a.loads, table⟩

/-- The decoder of one contract. -/
structure Decoder where
  name : String
  address : Address
  layout : Layout
deriving DecidableEq

/-- The kinds of transformers that a configuration can name. -/
def transformerKinds : List String := ["decoding"]

/-- The decoder of a configured contract. -/
def buildDecoder (hasDatabase : Bool) (name : String) (contract : ContractDecl) :
    Except StorageError Decoder :=
  if contract.transformer ∈ transformerKinds then do
    contract.storage.check name hasDatabase
    return ⟨name, contract.address, contract.storage⟩
  else .error (.unknownTransformer name contract.transformer)

/-- The decoders of configured contracts, in the order of their names. The first contract that has
none is the error. -/
def buildDecoders (hasDatabase : Bool) (contracts : Contracts) :
    Except StorageError (List Decoder) :=
  (contracts.entries.mergeSort fun a b => decide (a.1 ≤ b.1)).mapM fun e =>
    buildDecoder hasDatabase e.1 e.2

end SlotIndex
