import SlotIndex.Rlp
import SlotIndex.Word.Text

/-!
# Errors

Everything that can go wrong with a diff between its source and its decoded rows.

* `NodeError`: a request to the node failed.
* `DatabaseError`: a statement failed or a row could not be read back.
* `StorageError`: what the stages of the index report to each other.
* `StorageError.kind`: the coarse classes that the stages branch on.
-/

namespace SlotIndex

/-- A request to the node failed. -/
inductive NodeError where
  | transport (message : String)
  | invalidUrl (message : String)
  /-- The node answered with an error. -/
  | provider (message : String)
  | blockNotFound (height : UInt64)
deriving DecidableEq

/-- The wording of a node error. -/
def NodeError.message : NodeError → String
  | .transport message => s!"RPC transport error: {message}"
  | .invalidUrl message => s!"Invalid URL: {message}"
  | .provider message => s!"Provider error: {message}"
  | .blockNotFound height => s!"Block {Decimal.text height.toNat} not found"

/-- A statement failed or a row could not be read back. -/
inductive DatabaseError where
  /-- No connection could be opened. -/
  | pool (message : String)
  | migration (message : String)
  | io (message : String)
  | invalidConnectionString (message : String)
  | rowDecode (column message : String)
deriving DecidableEq

/-- The wording of a database error. -/
def DatabaseError.message : DatabaseError → String
  | .pool message => s!"Pool error: {message}"
  | .migration message => s!"Migration error: {message}"
  | .io message => s!"IO error: {message}"
  | .invalidConnectionString message => s!"Invalid connection string: {message}"
  | .rowDecode column message => s!"Row decode error in column '{column}': {message}"

/-- Coarse classes of errors. -/
inductive ErrorKind where
  /-- No metadata for the key is known yet. -/
  | keyNotFound
  /-- The diff is already stored. -/
  | duplicateDiff
  /-- A line of a source has the wrong shape. -/
  | rowMalformed
  /-- The database or the node cannot be reached. -/
  | transport
  /-- The declared layout or the configuration is wrong. -/
  | configuration
  | decode
deriving DecidableEq

/-- What the stages of the index report to each other. -/
inductive StorageError where
  | keyNotFound (key : Word)
  | duplicateDiff
  | rowMalformed (length : Nat)
  | invalidRowField (field detail : String)
  | invalidMetadata (name detail : String)
  | rlp (fault : Rlp.Fault)
  | database (error : DatabaseError)
  | node (error : NodeError)
  | io (message : String)
  | unknownTransformer (contract kind : String)
deriving DecidableEq

namespace StorageError

/-- The class of an error. -/
def kind : StorageError → ErrorKind
  | .keyNotFound _ => .keyNotFound
  | .duplicateDiff => .duplicateDiff
  | .rowMalformed _ | .invalidRowField .. => .rowMalformed
  | .invalidMetadata .. | .unknownTransformer .. => .configuration
  | .rlp _ => .decode
  | .database _ | .node _ | .io _ => .transport

/-- The wording of an error. -/
def message : StorageError → String
  | .keyNotFound key => s!"storage key {key.text} not found"
  | .duplicateDiff => "duplicate storage diff"
  | .rowMalformed length => s!"malformed row: expected 5 fields, got {length}"
  | .invalidRowField field detail => s!"invalid {field} field: {detail}"
  | .invalidMetadata name detail => s!"invalid metadata for '{name}': {detail}"
  | .rlp fault => s!"RLP decode error: {fault.message}"
  | .database error => s!"Database error: {error.message}"
  | .node error => s!"RPC error: {error.message}"
  | .io message => s!"IO error: {message}"
  | .unknownTransformer contract kind =>
    s!"contract '{contract}' names unknown transformer '{kind}'"

end StorageError

end SlotIndex
