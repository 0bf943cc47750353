import SlotIndex.Decoder
import SlotIndex.Diff.StateDiff
import SlotIndex.Report.Errors
import SlotIndex.Sql.ValueRows

/-!
# Reports of diffs

Diffs, state diffs and decoded rows as JSON. Numbers of 64 bits stand between quotes, since not every
reader of JSON keeps all their digits.

* `Diff.toJson`, `StateDiff.toJson`.
* `Metadata.toJson`, `DecodedValue.toJson`, `ValueRow.toJson`.
-/

namespace SlotIndex

open Json

/-- Bytes as hexadecimal text. -/
def bytesToJson (bytes : List UInt8) : Json := ofString (Hex.prefixed bytes)

/-- A word. -/
def Word.toJson (w : Word) : Json := ofString w.text

/-- A 64-bit number between quotes. -/
def largeToJson (n : UInt64) : Json := ofString (Decimal.text n.toNat)

/-- A list. -/
def listToJson {α : Type} (item : α → Json) (items : List α) : Json := .array (items.map item)

/-- A diff. -/
def Diff.toJson (d : Diff) : Json :=
  ofMembers [("block_hash", d.blockHash.toJson), ("block_height", largeToJson d.height),
    ("hashed_address", d.account.toJson), ("storage_key", d.key.toJson),
    ("storage_value", d.value.toJson)]

/-- The changes of an account. -/
def AccountDiff.toJson (a : AccountDiff) : Json :=
  ofMembers [("key", bytesToJson a.key), ("value", bytesToJson a.value),
    ("storage", listToJson (fun e => .array [bytesToJson e.key, bytesToJson e.value]) a.storage)]

/-- A state diff, with its diffs. -/
def StateDiff.toJson (d : StateDiff) : Json :=
  ofMembers [("block_number", largeToJson d.number), ("block_hash", d.hash.toJson),
    ("created", listToJson AccountDiff.toJson d.created),
    ("deleted", listToJson AccountDiff.toJson d.deleted),
    ("updated", listToJson AccountDiff.toJson d.updated),
    ("raw_diffs", listToJson (resultToJson Diff.toJson) d.diffs)]

/-- Texts by position. -/
def positionsToJson (texts : List (Nat × String)) : Json :=
  ofMembers (texts.map fun e => (Decimal.text e.1, ofString e.2))

/-- Metadata. -/
def Metadata.toJson (m : Metadata) : Json :=
  let byPlace (text : Field → String) : Json :=
    positionsToJson (m.fields.zipIdx.map fun e => (e.2, text e.1))
  ofMembers [("name", ofString m.name), ("keys", m.labels.toJson), ("type", ofString m.type.name),
    ("packed_types", byPlace fun f => f.type.name), ("packed_names", byPlace Field.name)]

/-- A decoded value. -/
def DecodedValue.toJson : DecodedValue → Json
  | .single text => ofString text
  | .packed fields => positionsToJson fields

/-- A decoded row. -/
def ValueRow.toJson (r : ValueRow) : Json :=
  ofMembers [("contract", ofString r.contract), ("diff_id", ofString (Decimal.signed r.diff.id)),
    ("name", ofString r.metadata.name), ("keys", r.metadata.labels.toJson),
    ("value", r.value.toJson)]

end SlotIndex
