/-!
# Reports of failures

A failure that a user sees is a chain of reasons, from what was attempted down to its cause.

* `FileFault`: why a file cannot be read.
* `Reason`: one link of the chain.
* `describeFailure`: the chain as text.
-/

namespace SlotIndex

/-- Why a file cannot be read. -/
inductive FileFault where
  | notFound
  | isDirectory
  | notDirectory
  /-- The file is no text. -/
  | invalidData
  /-- The path holds a null character. -/
  | invalidPath
  /-- The path or one of its names has too many octets. -/
  | nameTooLong
deriving DecidableEq

/-- One link of the chain of reasons of a failure. -/
inductive Reason where
  | text (message : String)
  /-- A text is no JSON, or not of the right shape. -/
  | json
  | file (fault : FileFault)
  /-- The network leads to no server. -/
  | unreachable
deriving DecidableEq

/-- The wording of a fault. -/
def FileFault.message : FileFault → String
  | .notFound => "no such file or directory"
  | .isDirectory => "is a directory"
  | .notDirectory => "not a directory"
  | .invalidData => "the file is no text"
  | .invalidPath => "the path holds a null character"
  | .nameTooLong => "the path or a name in it is too long"

/-- The wording of a reason. -/
def Reason.message : Reason → String
  | .text message => message
  | .json => "the text is no JSON of the expected shape"
  | .file fault => fault.message
  | .unreachable => "the network leads to no server"

/-- The chain of reasons of a failure, each on a line of its own. -/
def describeFailure (reasons : List Reason) : String :=
  "\n  caused by: ".intercalate (reasons.map Reason.message)

end SlotIndex
