import SlotIndex.Diff.StateDiff
import SlotIndex.Json.Fields

/-!
# Payloads of a node

The answer of a node to a request for the state diff of one block: two binary forms as hexadecimal
text in a JSON object. The block may be missing.

* `Payload.ofJson?`, `Payload.parse`, `Payload.toJson`.
* `Payload.stateDiff`: the state diff inside.
-/

namespace SlotIndex

/-- The binary forms of a block and of its state diff. -/
structure Payload where
  block : List UInt8 := []
  stateDiff : List UInt8
deriving DecidableEq

namespace Payload

open Json

/-- A payload. -/
def ofJson? (j : Json) : Option Payload := do
  let [block, stateDiff] ← record? ["blockRlp", "stateDiffRlp"] j | none
  return {
    block := ← orElse? [] bytes? block
    stateDiff := ← required? bytes? stateDiff }

/-- The payload of a JSON text. -/
def parse (text : String) : Option Payload := (Json.parse text).bind ofJson?

/-- The payload as a JSON object. -/
def toJson (p : Payload) : Json :=
  ofMembers [("blockRlp", ofString (Hex.prefixed p.block)),
    ("stateDiffRlp", ofString (Hex.prefixed p.stateDiff))]

/-- The state diff inside a payload. -/
def decode (p : Payload) : Except StorageError StateDiff :=
  (StateDiff.decode p.stateDiff).mapError .rlp

end Payload

end SlotIndex
