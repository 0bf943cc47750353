import SlotIndex.Config.Failure
import SlotIndex.Connection.Servers
import SlotIndex.Error

/-!
# Connecting to a database

A connection is opened to one of the servers that a connection string names.

* `connect`: the servers that were reached, or the `ConnectionError`.
* `ConnectionError.reasons`, `ConnectionError.toDatabaseError`: how the error is reported.
-/

namespace SlotIndex

/-- Why no connection could be opened. -/
inductive ConnectionError where
  | badString
  | badServers (fault : Servers.Fault)
  | unreachable
deriving DecidableEq

namespace ConnectionError

/-- The wording of an error, without what led to it. -/
def cause : ConnectionError → String
  | .badString => "invalid connection string"
  | .badServers _ => "invalid configuration"
  | .unreachable => "error connecting to server"

/-- The wording of a connection that could not be made for a pool. -/
def creation (e : ConnectionError) : String :=
  s!"Error occurred while creating a new object: {e.cause}"

/-- The error as one of the database. -/
def toDatabaseError : ConnectionError → DatabaseError
  | .badString => .invalidConnectionString ConnectionError.badString.cause
  | e => .pool e.creation

/-- The reasons of an error, outermost first. -/
def reasons (e : ConnectionError) : List Reason :=
  .text "failed to connect to database" :: .text e.toDatabaseError.message ::
    match e with
    | .badString => []
    | .badServers fault => [.text e.creation, .text e.cause, .text fault.message]
    | .unreachable => [.text e.creation, .text e.cause, .unreachable]

end ConnectionError

/-- Connect to the servers of a connection string; `reaches` says whether one of them answers. -/
def connect (reaches : Servers → Bool) (text : String) : Except ConnectionError Servers :=
  match Servers.parse text with
  | none => .error .badString
  | some servers =>
    match servers.fault? with
    | some fault => .error (.badServers fault)
    | none => if reaches servers then .ok servers else .error .unreachable

end SlotIndex
