import SlotIndex.Error
import SlotIndex.Slot.ValueType
import SlotIndex.Table

/-!
# Metadata of a slot

What is declared about one storage slot: its name, the mapping keys that lead to it and how its
value is read. A slot is plain or packed; the fields of a packed slot are listed from the low-order
end.

* `Shape.Valid`: the shapes that can be decoded. A `Metadata` holds a valid shape.
* `Metadata.plain`, `Metadata.packed`, `Metadata.ofSlot`: the constructors, from a type, from maps by
  position and from a list of fields.
-/

namespace SlotIndex

/-- One field of a packed slot. -/
structure Field where
  name : String
  type : ValueType
deriving DecidableEq

/-- How the value of a slot is read. -/
inductive Shape where
  | plain (type : ValueType)
  /-- Several fields, listed from the low-order end. -/
  | packed (fields : List Field)
deriving DecidableEq

/-- The bytes that fields take together. -/
def totalWidth : List Field → Nat
  | [] => 0
  | f :: rest => f.type.width + totalWidth rest

/-- A plain slot has a type of its own; the fields of a packed slot are some, none of them is a
packed slot and together they fit into 32 bytes. -/
def Shape.Valid : Shape → Prop
  | .plain type => type ≠ .packedSlot
  | .packed fields =>
    fields ≠ [] ∧ (∀ f ∈ fields, f.type ≠ .packedSlot) ∧ totalWidth fields ≤ 32

instance : DecidablePred Shape.Valid
  | .plain type => inferInstanceAs (Decidable (type ≠ .packedSlot))
  | .packed fields => inferInstanceAs
      (Decidable (fields ≠ [] ∧ (∀ f ∈ fields, f.type ≠ .packedSlot) ∧ totalWidth fields ≤ 32))

/-- The names of mapping levels with the keys that lead to a slot. -/
abbrev Labels := Table String String

/-- What is declared about one slot. -/
structure Metadata where
  name : String
  labels : Labels
  shape : Shape
  valid : shape.Valid
deriving DecidableEq

/-- Why a declaration is no metadata. -/
inductive MetadataFault where
  | packedWithoutFields
  | noFields
  | differentPositions
  | gapsInPositions
  | nestedPackedSlot
  | tooWide (total : Nat)
  | fieldsOfPlainSlot
deriving DecidableEq

/-- The wording of a fault. -/
def MetadataFault.message : MetadataFault → String
  | .packedWithoutFields => "packed slot declared without packed fields"
  | .noFields => "packed slot has no fields"
  | .differentPositions => "packed names and types cover different positions"
  | .gapsInPositions => "packed positions must be contiguous from 0"
  | .nestedPackedSlot => "nested packed slot"
  | .tooWide total => s!"packed fields need {total} bytes, a slot holds 32"
  | .fieldsOfPlainSlot => "packed fields given for a slot that is not a packed slot"

/-- The entries of a map by position, in the order of their positions. -/
def byPosition {α : Type} (t : Table Nat α) : List (Nat × α) :=
  t.entries.mergeSort fun a b => a.1 ≤ b.1

namespace Metadata

/-- Metadata with fields that have passed every other check. -/
def ofFields (name : String) (labels : Labels) (fields : List Field) :
    Except MetadataFault Metadata :=
  if hn : fields = [] then .error .noFields
  else if hp : ∀ f ∈ fields, f.type ≠ .packedSlot then
    if hw : totalWidth fields ≤ 32 then .ok ⟨name, labels, .packed fields, hn, hp, hw⟩
    else .error (.tooWide (totalWidth fields))
  else .error .nestedPackedSlot

/-- The metadata of a plain slot. -/
def plain? (name : String) (labels : Labels) (type : ValueType) : Except MetadataFault Metadata :=
  if h : type = .packedSlot then .error .packedWithoutFields
  else .ok ⟨name, labels, .plain type, h⟩

/-- The metadata of a packed slot, from the types and the names of its fields by position. -/
def packed? (name : String) (labels : Labels) (types : Table Nat ValueType)
    (names : Table Nat String) : Except MetadataFault Metadata :=
  let types := byPosition types
  let names := byPosition names
  if types = [] then .error .noFields
  else if types.map Prod.fst ≠ names.map Prod.fst then .error .differentPositions
  else if types.map Prod.fst ≠ List.range types.length then .error .gapsInPositions
  else ofFields name labels (List.zipWith (fun t n => ⟨n.2, t.2⟩) types names)

/-- A list as a map by position. -/
def positions {α : Type} (as : List α) : Table Nat α :=
  Table.ofList (as.zipIdx.map fun e => (e.2, e.1))

/-- The metadata of a slot as a layout declares it. -/
def ofSlot? (name : String) (labels : Labels) (type : ValueType) (fields : List Field) :
    Except MetadataFault Metadata :=
  if type = .packedSlot then
    packed? name labels (positions (fields.map Field.type)) (positions (fields.map Field.name))
  else if fields = [] then plain? name labels type
  else .error .fieldsOfPlainSlot

/-- A faulty declaration as an error that bears the name of the slot. -/
def orError (name : String) (result : Except MetadataFault Metadata) :
    Except StorageError Metadata :=
  result.mapError fun fault => .invalidMetadata name fault.message

/-- The metadata of a plain slot. -/
def plain (name : String) (labels : Labels) (type : ValueType) : Except StorageError Metadata :=
  orError name (plain? name labels type)

/-- The metadata of a packed slot, from the types and the names of its fields by position. -/
def packed (name : String) (labels : Labels) (types : Table Nat ValueType)
    (names : Table Nat String) : Except StorageError Metadata :=
  orError name (packed? name labels types names)

/-- The metadata of a slot as a layout declares it. -/
def ofSlot (name : String) (labels : Labels) (type : ValueType) (fields : List Field) :
    Except StorageError Metadata :=
  orError name (ofSlot? name labels type fields)

/-- The declared type: a packed slot has the type of that name. -/
def type (m : Metadata) : ValueType :=
  match m.shape with
  | .plain type => type
  | .packed _ => .packedSlot

/-- The packed fields; a plain slot has none. -/
def fields (m : Metadata) : List Field :=
  match m.shape with
  | .plain _ => []
  | .packed fields => fields

end Metadata

end SlotIndex
