import SlotIndex.Diff
import SlotIndex.Slot.Decode
import SlotIndex.Sql

/-!
# Rows of decoded values

A decoded diff becomes rows of the value table: one for a plain slot, one for each field of a packed
slot. A row that is there already stays as it is.

* `namedTexts`: the names and texts of a decoded value.
* `valueOperations`: the writes.
-/

namespace SlotIndex

/-- The names and texts of a decoded value, in the order of the positions. A position without a name
is left out. -/
def namedTexts (metadata : Metadata) : DecodedValue → List (String × String)
  | .single text => [(metadata.name, text)]
  | .packed fields =>
    fields.filterMap fun e => (metadata.fields[e.1]?).map fun f => (f.name, e.2)

/-- The labels of a slot as a JSON object. -/
def Labels.toJson (labels : Labels) : Json :=
  .ofMembers (labels.entries.map fun e => (e.1, .ofString e.2))

/-- The columns of the value table. -/
def valueColumns : List String :=
  ["diff_id", "contract", "name", "hashed_address", "block_height", "block_hash", "keys", "value"]

/-- The columns that tell rows of the value table apart. -/
def valueConflictColumns : List String := ["diff_id", "name"]

/-- The write of one named text. -/
def valueOperation (contract : String) (d : StoredDiff) (metadata : Metadata)
    (named : String × String) : Sql.Operation :=
  .upsert "storage_values" valueColumns
    [.int64 d.id, .text contract, .text named.1, .word d.diff.account, .uint64 d.diff.height,
      .word d.diff.blockHash, .json (Labels.toJson metadata.labels), .json (.ofString named.2)]
    valueConflictColumns []

/-- The writes of a decoded diff. -/
def valueOperations (contract : String) (d : StoredDiff) (metadata : Metadata)
    (value : DecodedValue) : List Sql.Operation :=
  (namedTexts metadata value).map (valueOperation contract d metadata)

end SlotIndex
