/-!
# Value types

The types that a slot, or a field packed into a slot, can be declared with, and the number of bytes
that a value of each takes.
-/

namespace SlotIndex

/-- The declared type of a slot or of a packed field. -/
inductive ValueType where
  | uint8
  | uint16
  | uint32
  | uint48
  | uint64
  | uint128
  | uint256
  | address
  | bytes32
  /-- A slot that several fields share. -/
  | packedSlot
deriving DecidableEq

namespace ValueType

/-- The types in the order of their declaration. -/
def all : List ValueType :=
  [.uint8, .uint16, .uint32, .uint48, .uint64, .uint128, .uint256, .address, .bytes32, .packedSlot]

/-- The name of a type in a layout. -/
def name : ValueType → String
  | .uint8 => "uint8"
  | .uint16 => "uint16"
  | .uint32 => "uint32"
  | .uint48 => "uint48"
  | .uint64 => "uint64"
  | .uint128 => "uint128"
  | .uint256 => "uint256"
  | .address => "address"
  | .bytes32 => "bytes32"
  | .packedSlot => "packed_slot"

/-- The type with a name. -/
def ofName? (name : String) : Option ValueType :=
  all.find? fun t => t.name = name

/-- The number of bytes that a value takes. -/
def width : ValueType → Nat
  | .uint8 => 1
  | .uint16 => 2
  | .uint32 => 4
  | .uint48 => 6
  | .uint64 => 8
  | .uint128 => 16
  | .uint256 => 32
  | .address => 20
  | .bytes32 => 32
  | .packedSlot => 32

theorem width_pos (t : ValueType) : 0 < t.width := by cases t <;> decide

theorem width_le (t : ValueType) : t.width ≤ 32 := by cases t <;> decide

theorem ofName?_name (t : ValueType) : ofName? t.name = some t := by cases t <;> decide

end ValueType

end SlotIndex
