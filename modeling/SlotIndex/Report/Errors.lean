import SlotIndex.Backfill.Range
import SlotIndex.Config.Failure
import SlotIndex.Json

/-!
# Reports of errors

Errors as JSON: the name of the error, its class where it has one, and its message.

* `StorageError.toJson`, `BackfillError.toJson`.
* `resultToJson`: a result that may be an error.
* `reasonsToJson`: the chain of reasons of a failure.
-/

namespace SlotIndex

open Json

/-- The name of an error. -/
def StorageError.name : StorageError → String
  | .keyNotFound _ => "KeyNotFound"
  | .duplicateDiff => "DuplicateDiff"
  | .rowMalformed _ => "RowMalformed"
  | .invalidRowField .. => "InvalidRowField"
  | .invalidMetadata .. => "InvalidMetadata"
  | .rlp _ => "Rlp"
  | .database _ => "Database"
  | .node _ => "Rpc"
  | .io _ => "Io"
  | .unknownTransformer .. => "UnknownTransformer"

/-- The name of a class of errors. -/
def ErrorKind.name : ErrorKind → String
  | .keyNotFound => "KeyNotFound"
  | .duplicateDiff => "DuplicateDiff"
  | .rowMalformed => "RowMalformed"
  | .transport => "Transport"
  | .configuration => "Configuration"
  | .decode => "Decode"

/-- A storage error. -/
def StorageError.toJson (e : StorageError) : Json :=
  ofMembers [("error", ofString e.name), ("kind", ofString e.kind.name),
    ("message", ofString e.message)]

/-- A result, with its error in the place of a value. -/
def resultToJson {α : Type} (value : α → Json) : Except StorageError α → Json
  | .ok a => value a
  | .error e => e.toJson

/-- The name of an error. -/
def BackfillError.name : BackfillError → String
  | .invalidRange .. => "InvalidRange"
  | .zeroBatchSize => "ZeroBatchSize"
  | .fetch .. => "Fetch"
  | .decode .. => "Decode"
  | .normalize .. => "Normalize"

/-- A backfill error, with the error that it comes from. -/
def BackfillError.toJson (e : BackfillError) : Json :=
  ofMembers [("error", ofString e.name), ("message", ofString e.message),
    ("source", (e.source?.map StorageError.toJson).getD .null)]

/-- The name of a fault. -/
def FileFault.name : FileFault → String
  | .notFound => "NotFound"
  | .isDirectory => "IsADirectory"
  | .notDirectory => "NotADirectory"
  | .invalidData => "InvalidData"
  | .invalidPath => "InvalidInput"
  | .nameTooLong => "InvalidFilename"

/-- A reason as text. What the system or a reader of JSON says of a fault stands by its name alone,
between angle brackets. -/
def Reason.label : Reason → String
  | .text message => message
  | .json => "<json>"
  | .file fault => s!"<io:{fault.name}>"
  | .unreachable => "<io:NetworkUnreachable>"

/-- The chain of reasons of a failure. -/
def reasonsToJson (reasons : List Reason) : Json :=
  ofMembers [("chain", .array (reasons.map fun r => ofString r.label)),
    ("error", ofString "Anyhow")]

end SlotIndex
