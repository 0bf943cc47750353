import SlotIndex.Json.Fields
import SlotIndex.Layout

/-!
# Layouts in JSON

How a storage layout is written in a configuration file. `type` names a value type, either as a
string or as an object with that one member, which is null.

* `ValueType.ofJson?`, `Layout.ofJson?`.
-/

namespace SlotIndex

open Json

/-- A value type. -/
def ValueType.ofJson? : Json → Option ValueType
  | .string text => text.bind ofName?
  | .object [(some name, .null)] => ofName? name
  | _ => none

/-- A field of a packed slot. -/
def Field.ofJson? (j : Json) : Option Field := do
  let [name, type] ← record? ["name", "type"] j | none
  return { name := ← required? text? name, type := ← required? ValueType.ofJson? type }

/-- The fields of a packed slot. -/
def packedOfJson? : Option Json → Option (List Field) :=
  orElse? [] (list? Field.ofJson?)

/-- A state variable. -/
def SlotDecl.ofJson? (j : Json) : Option SlotDecl := do
  let [key, name, type, packed] ← record? ["key", "name", "type", "packed"] j | none
  return {
    key := ← required? text? key
    name := ← required? text? name
    type := ← required? ValueType.ofJson? type
    packed := ← packedOfJson? packed }

/-- A mapping key: a word, or a list of words. -/
def MappingKey.ofJson? (levels : Nat) (j : Json) : Option MappingKey :=
  if isPlainData levels j then
    match j with
    | .array items => MappingKey.nested <$> items.mapM text?
    | j => MappingKey.single <$> text? j
  else none

/-- A member of a struct. -/
def MemberDecl.ofJson? (j : Json) : Option MemberDecl := do
  let [offset, name, type, packed] ← record? ["offset", "name", "type", "packed"] j | none
  return {
    offset := ← required? uint64? offset
    name := ← required? text? name
    type := ← required? ValueType.ofJson? type
    packed := ← packedOfJson? packed }

/-- A mapping, at a place where lists may be nested `levels` deep. -/
def MappingDecl.ofJson? (levels : Nat) (j : Json) : Option MappingDecl := do
  let [index, name, type, keyNames, keys, keysQuery, packed, members] ←
    record? ["index", "name", "type", "key_names", "keys", "keys_query", "packed", "fields"] j
    | none
  return {
    index := ← required? text? index
    name := ← required? text? name
    type := ← orElse? .uint256 ValueType.ofJson? type
    keyNames := ← required? (list? text?) keyNames
    keys := ← orElse? [] (list? (MappingKey.ofJson? (levels - 2))) keys
    keysQuery := ← orElse? none (optional? text?) keysQuery
    packed := ← packedOfJson? packed
    members := ← orElse? [] (list? MemberDecl.ofJson?) members }

/-- The levels of lists and objects that a text may nest. -/
def maxLevels : Nat := 127

/-- A storage layout, at a place where lists and objects may be nested `levels` deep. -/
def Layout.ofJson? (levels : Nat) (j : Json) : Option Layout := do
  let [slots, mappings] ← record? ["slots", "mappings"] j | none
  return {
    slots := ← orElse? [] (list? SlotDecl.ofJson?) slots
    mappings := ← orElse? [] (list? (MappingDecl.ofJson? (levels - 2))) mappings }

end SlotIndex
