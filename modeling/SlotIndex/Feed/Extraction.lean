import SlotIndex.Feed.Tail

/-!
# Extraction

The diffs that a source sends are written to the diff table. A diff that is stored already is passed
over, and so is a write that fails for a reason of its own; when the table cannot be reached
extraction ends with that error.

* `Extraction.persist`: one diff is written.
* `Extraction.run`: a source is worked off through channels of a given capacity.
-/

namespace SlotIndex

/-- The diff table as extraction sees it, and what has been done so far. -/
structure Extraction where
  /-- The stored diffs, in the order in which they were stored. -/
  stored : List Diff
  /-- The number of writes, failed ones included. -/
  writes : Nat
  /-- The error that has ended extraction. -/
  failure : Option StorageError
deriving DecidableEq

namespace Extraction

/-- Extraction into a table. -/
def start (stored : List Diff) : Extraction := ⟨stored, 0, none⟩

/-- The outcome of a write: the table behind it, or its error. -/
def write (fails : Nat → Option StorageError) (s : Extraction) (d : Diff) :
    Except StorageError (List Diff) :=
  match fails (s.writes + 1) with
  | some e => .error e
  | none => if d ∈ s.stored then .error .duplicateDiff else .ok (s.stored ++ [d])

/-- Write one diff, unless extraction has ended. -/
def persist (fails : Nat → Option StorageError) (s : Extraction) (d : Diff) : Extraction :=
  if s.failure.isSome then s
  else
    match s.write fails d with
    | .ok stored => { s with stored, writes := s.writes + 1 }
    | .error e =>
      { s with writes := s.writes + 1, failure := if e.kind = .transport then some e else none }

/-- Take in one message: a diff is written, an error is passed over. -/
def take (fails : Nat → Option StorageError) (s : Extraction) : SourceMessage → Extraction
  | .ok d => s.persist fails d
  | .error _ => s

/-- How a source that has sent everything ends. -/
inductive Ending where
  | returns (result : Except StorageError Unit)
  /-- It waits for more until it is cancelled. -/
  | waits

/-- The messages that fit into the two channels, which hold `diffs` and `errors` more, and the
others. -/
def fill : (diffs errors : Nat) → List SourceMessage → List SourceMessage × List SourceMessage
  | _, _, [] => ([], [])
  | diffs, errors, m :: rest =>
    match m, diffs, errors with
    | .ok _, 0, _ => ([], m :: rest)
    | .error _, _, 0 => ([], m :: rest)
    | .ok _, n + 1, e => let r := fill n e rest; (m :: r.1, r.2)
    | .error _, n, e + 1 => let r := fill n e rest; (m :: r.1, r.2)

/-- How extraction has come out. -/
structure Outcome where
  state : Extraction
  /-- Whether it ended before it was cancelled. -/
  endedByItself : Bool
  result : Except StorageError Unit

/-- The outcome when a source has sent everything that it could. -/
def outcome (s : Extraction) (sentAll : Bool) (ending : Ending) : Outcome :=
  match s.failure, sentAll, ending with
  | some e, true, .waits => ⟨s, false, .error e⟩
  | some e, _, _ => ⟨s, true, .error e⟩
  | none, _, .waits => ⟨s, false, .ok ()⟩
  | none, _, .returns result => ⟨s, true, result⟩

/-- Work off a source that sends its messages in bursts. In each round as many messages of a burst
are sent as fit into the channels, then all of them are taken in. Once extraction has failed, the
source ends at the next message that it tries to send. -/
def rounds (fails : Nat → Option StorageError) (capacity : Nat) (ending : Ending) :
    (steps : Nat) → Extraction → List (List SourceMessage) → Outcome
  | 0, s, _ => s.outcome true ending
  | _, s, [] => s.outcome true ending
  | steps + 1, s, burst :: bursts =>
    let (sent, unsent) := fill capacity capacity burst
    let s := sent.foldl (take fails) s
    if s.failure.isSome then s.outcome (unsent ++ bursts.flatten).isEmpty ending
    else rounds fails capacity ending steps s (if unsent = [] then bursts else unsent :: bursts)

/-- Work off a source to its end. -/
def run (fails : Nat → Option StorageError) (capacity : Nat) (s : Extraction)
    (bursts : List (List SourceMessage)) (ending : Ending) : Outcome :=
  rounds fails capacity ending (bursts.flatten.length + bursts.length + 1) s bursts

end Extraction

end SlotIndex
