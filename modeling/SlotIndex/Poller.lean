import SlotIndex.Diff

/-!
# Polling the diff table

The poller asks the table for unchecked diffs again and again and forwards them to the watcher
through a channel. A cursor on the largest forwarded id keeps a diff from being sent twice while the
watcher is still at work; it goes back to zero after a poll that forwarded nothing and found the
channel empty. While the channel is full the poller holds one item and waits. The query goes on
meanwhile, but only some rows ahead of the poller; whether it fails shows when it comes to its end.

* `DiffSource`: the table as the poller sees it; `DiffSource.ofRows`: a table that does not fail.
* `Poller`: the state of the poller and of its channel.
* `Poller.settle`: the poller goes on until it has to wait.
* `Poller.tick`, `Poller.receive`, `Poller.close`, `Poller.cancel`: what happens around it.
-/

namespace SlotIndex

/-- The table at a moment: the answer to a query for the rows above an id, some of which may be
unreadable, and the error with which a query ends that comes to its end now, if it fails. -/
structure DiffSource where
  rows : DiffId → List (Except StorageError StoredDiff)
  failure : Option StorageError := none

/-- A table with the given rows: those above the cursor in the order of their ids. -/
def DiffSource.ofRows (rows : List StoredDiff) : DiffSource where
  rows minId :=
    ((rows.filter fun d => minId < d.id).mergeSort fun a b => a.id ≤ b.id).map .ok

/-- What is sent to the watcher. -/
abbrev PollItem := Except StorageError StoredDiff

/-- Where the poller stands. -/
inductive PollPhase where
  /-- It waits for the next tick. -/
  | waiting
  /-- It works off the rows of a poll, of which it has forwarded some. `lost` says that the channel
  was found closed, `ending` how the query has ended, once it has. -/
  | forwarding (rows : List (Except StorageError StoredDiff)) (forwarded : Nat) (lost : Bool)
      (ending : Option (Option StorageError))
  /-- It is about to send the error of a failed poll, and ends then. -/
  | reporting (error : StorageError)
  | ended

/-- What the poller has done, for those who follow it. -/
inductive PollEvent where
  | polled (minId : DiffId)
  | forwarded (id : DiffId)
  | reset
  | reported (error : StorageError)
deriving DecidableEq

/-- The poller and its channel. -/
structure Poller where
  cursor : DiffId
  phase : PollPhase
  /-- A tick has come that has not been followed yet. -/
  due : Bool
  cancelled : Bool
  /-- Items that have been sent and not been taken. -/
  channel : List PollItem
  capacity : Nat
  /-- Whether the receiver is gone. -/
  closed : Bool
  /-- Everything that has happened, latest first. -/
  log : List PollEvent

namespace Poller

/-- The poller before its first tick, which is due at once. -/
def initial (capacity : Nat) (cancelled : Bool) : Poller where
  cursor := 0
  phase := .waiting
  due := true
  cancelled
  channel := []
  capacity
  closed := false
  log := []

/-- Whether the channel can take an item. -/
def hasRoom (s : Poller) : Bool := s.channel.length < s.capacity

/-- The end of a poll whose rows have all been worked off. -/
def finishPoll (s : Poller) (forwarded : Nat) (lost : Bool) : Option StorageError → Poller
  | some e => { s with phase := .reporting e }
  | none =>
    if lost then { s with phase := .ended }
    else if forwarded = 0 ∧ s.channel = [] then
      { s with cursor := 0, phase := .waiting, log := .reset :: s.log }
    else { s with phase := .waiting }

/-- The rows that a query may be ahead of the poller. -/
def lead : Nat := 256

/-- Work off rows until none is left or the channel is full. A query that has not ended ends in the
given way when its last row is no more than `lead` rows away. -/
def forward (s : Poller) (failure : Option StorageError) (ending : Option (Option StorageError)) :
    (forwarded : Nat) → (lost : Bool) → List (Except StorageError StoredDiff) → Poller
  | n, lost, [] => s.finishPoll n lost (ending.getD failure)
  | n, lost, .error _ :: rows => forward s failure ending n lost rows
  | n, lost, .ok d :: rows =>
    if lost then forward s failure ending n lost rows
    else if s.closed then forward s failure ending (n + 1) true rows
    else if s.hasRoom then
      forward { s with
        cursor := max s.cursor d.id
        channel := s.channel ++ [.ok d]
        log := .forwarded d.id :: s.log } failure ending (n + 1) lost rows
    else
      let ending := if rows.length < lead then some (ending.getD failure) else ending
      { s with phase := .forwarding (.ok d :: rows) n lost ending }

/-- Send the error of a failed poll, if the channel can take it. -/
def report (s : Poller) (e : StorageError) : Poller :=
  if s.closed then { s with phase := .ended }
  else if s.hasRoom then
    { s with phase := .ended, channel := s.channel ++ [.error e], log := .reported e :: s.log }
  else { s with phase := .reporting e }

/-- Go on with what the poller is at. -/
def advance (s : Poller) (failure : Option StorageError) : Poller :=
  let s :=
    match s.phase with
    | .forwarding rows n lost ending => s.forward failure ending n lost rows
    | _ => s
  match s.phase with
  | .reporting e => s.report e
  | _ => s

/-- Ask the table. -/
def poll (s : Poller) (table : DiffSource) : Poller :=
  { s with
    due := false
    phase := .forwarding (table.rows s.cursor) 0 false none
    log := .polled s.cursor :: s.log }

/-- Follow a tick that is due: a poller that has been cancelled ends, any other asks the table. -/
def awake (s : Poller) (table : DiffSource) : Poller :=
  match s.phase with
  | .waiting =>
    if s.cancelled then { s with phase := .ended }
    else if s.due then (s.poll table).advance table.failure
    else s
  | _ => s

/-- Go on until the poller has to wait: for room in the channel, or for the next tick. -/
def settle (s : Poller) (table : DiffSource) : Poller :=
  (s.advance table.failure).awake table

/-- A tick comes. -/
def tick (s : Poller) (table : DiffSource) : Poller :=
  { s with due := true }.settle table

/-- The watcher takes the next item, if there is one. -/
def receive (s : Poller) : Option (PollItem × Poller) :=
  match s.channel with
  | [] => none
  | item :: rest => some (item, { s with channel := rest })

/-- The receiver goes away, and with it everything that it has not taken. -/
def close (s : Poller) : Poller := { s with channel := [], closed := true }

/-- Cancellation is asked for. -/
def cancel (s : Poller) : Poller := { s with cancelled := true }

/-- Whether the poller has not ended. -/
def isRunning (s : Poller) : Bool :=
  match s.phase with
  | .ended => false
  | _ => true

/-- The ids with which the table has been asked, in order. -/
def polls (s : Poller) : List DiffId :=
  s.log.reverse.filterMap fun
    | .polled minId => some minId
    | _ => none

end Poller

end SlotIndex
