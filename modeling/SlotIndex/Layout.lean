import SlotIndex.Slot.Location
import SlotIndex.Slot.Metadata
import SlotIndex.Word.Text

/-!
# Storage layouts

What a configuration declares about the storage of one contract: plain state variables, and mappings
with the keys whose entries are of interest.

* `Layout`, `SlotDecl`, `MappingDecl`, `MemberDecl`, `MappingKey`: the declarations as they are
  written.
* `Layout.declarations`: every declared location with its metadata, in the order of declaration. The
  first fault in that order is the error.
* `Layout.table`: the key table; of several declarations of one location the last one counts.
* `Layout.load`: the key table with the keys that queries supply.
* `Layout.check`: what is checked once, at startup.
* `Layout.loadAlone`: the key table without a database.
-/

namespace SlotIndex

/-- A state variable. The key is a slot number as it is written. -/
structure SlotDecl where
  key : String
  name : String
  type : ValueType
  packed : List Field := []
deriving DecidableEq

/-- A key of a mapping as it is written: one word, or one word for each level. -/
inductive MappingKey where
  | single (word : String)
  | nested (words : List String)
deriving DecidableEq

/-- The words of a key, outermost first. -/
def MappingKey.words : MappingKey → List String
  | .single word => [word]
  | .nested words => words

/-- A member of the struct that a mapping holds. -/
structure MemberDecl where
  offset : UInt64
  name : String
  type : ValueType
  packed : List Field := []
deriving DecidableEq

/-- A mapping, with one name for each of its levels, outermost first. -/
structure MappingDecl where
  index : String
  name : String
  type : ValueType := .uint256
  keyNames : List String
  keys : List MappingKey := []
  /-- A query that yields further keys at every load. -/
  keysQuery : Option String := none
  packed : List Field := []
  /-- The members of the struct in the mapping; without members the mapping holds plain values. -/
  members : List MemberDecl := []
deriving DecidableEq

/-- The declared storage of one contract. -/
structure Layout where
  slots : List SlotDecl := []
  mappings : List MappingDecl := []
deriving DecidableEq

instance : Inhabited Layout := ⟨{}⟩

/-- Why a mapping key has no slot. -/
inductive KeyFault where
  | wordCount (expected got : Nat)
  | badWord (fault : WordFault)
deriving DecidableEq

/-- The wording of a fault. -/
def KeyFault.message : KeyFault → String
  | .wordCount expected got => s!"expected {expected} mapping keys, got {got}"
  | .badWord fault => fault.message

/-- A declared location. -/
abbrev Declaration := Word × Metadata

/-- A word as it is written, with a fault under the name of its declaration. -/
def wordOf (name written : String) : Except StorageError Word :=
  (Word.parse written).mapError fun fault => .invalidMetadata name fault.message

/-- The location that a state variable declares. -/
def SlotDecl.declaration (slot : SlotDecl) : Except StorageError Declaration := do
  let key ← wordOf slot.name slot.key
  let metadata ← Metadata.ofSlot slot.name Table.empty slot.type slot.packed
  return (key, metadata)

namespace MappingDecl

/-- The words of a key, one for each level of the mapping. -/
def parseKey (mapping : MappingDecl) (key : MappingKey) : Except KeyFault (List Word) :=
  let words := key.words
  if words.length = mapping.keyNames.length then
    (words.mapM Word.parse).mapError .badWord
  else .error (.wordCount mapping.keyNames.length words.length)

/-- The names of the levels with the words of a key as they are written. -/
def labels (mapping : MappingDecl) (key : MappingKey) : Labels :=
  Table.ofList (mapping.keyNames.zip key.words)

/-- What a mapping declares at the slot of one key: its own value, or the members of its struct. -/
def declarationsAt (mapping : MappingDecl) (labels : Labels) (base : Word) :
    Except StorageError (List Declaration) :=
  if mapping.members = [] then do
    let metadata ← Metadata.ofSlot mapping.name labels mapping.type mapping.packed
    return [(base, metadata)]
  else
    mapping.members.mapM fun member => do
      let metadata ← Metadata.ofSlot member.name labels member.type member.packed
      return (memberSlot base member.offset, metadata)

/-- What a mapping declares for one key. -/
def declarationsFor (mapping : MappingDecl) (index : Word) (key : MappingKey) :
    Except StorageError (List Declaration) := do
  let words ← (mapping.parseKey key).mapError fun fault =>
    .invalidMetadata mapping.name fault.message
  mapping.declarationsAt (mapping.labels key) (nestedSlot words index)

/-- What a mapping declares for a list of keys. Its index must be a word even without keys. -/
def declarations (mapping : MappingDecl) (keys : List MappingKey) :
    Except StorageError (List Declaration) := do
  let index ← wordOf mapping.name mapping.index
  let found ← keys.mapM (mapping.declarationsFor index)
  return found.flatten

end MappingDecl

namespace Layout

/-- Every location that a layout declares by itself, in the order of declaration. -/
def declarations (layout : Layout) : Except StorageError (List Declaration) := do
  let slots ← layout.slots.mapM SlotDecl.declaration
  let entries ← layout.mappings.mapM fun mapping => mapping.declarations mapping.keys
  return slots ++ entries.flatten

/-- The key table that a layout declares by itself. -/
def table (layout : Layout) : Except StorageError (Table Word Metadata) :=
  Table.ofList <$> layout.declarations

/-- The locations that the queried keys of one mapping add. -/
def queried (query : String → Except StorageError (List MappingKey)) (mapping : MappingDecl) :
    Except StorageError (List Declaration) :=
  match mapping.keysQuery with
  | none => .ok []
  | some text => do
    let keys ← query text
    mapping.declarations keys

/-- The key table of a layout with the keys that its queries supply. -/
def load (layout : Layout) (query : String → Except StorageError (List MappingKey)) :
    Except StorageError (Table Word Metadata) := do
  let fixed ← layout.table
  let found ← layout.mappings.mapM (queried query)
  return fixed.insertAll found.flatten

/-- Without a database no query supplies keys. -/
def noKeys (_query : String) : Except StorageError (List MappingKey) := .ok []

/-- What is checked at startup: the layout declares a key table, and without a database no mapping
asks for queried keys. -/
def check (layout : Layout) (contract : String) (hasDatabase : Bool) :
    Except StorageError Unit := do
  let _ ← layout.declarations
  if hasDatabase then return ()
  match layout.mappings.find? fun mapping => mapping.keysQuery.isSome with
  | some mapping =>
    throw (.invalidMetadata mapping.name
      s!"contract {contract} uses keys_query without a database")
  | none => return ()

/-- The key table of the layout of a contract, checked and loaded without a database. -/
def loadAlone (layout : Layout) (contract : String) : Except StorageError (Table Word Metadata) := do
  layout.check contract false
  layout.load noKeys

end Layout

end SlotIndex
