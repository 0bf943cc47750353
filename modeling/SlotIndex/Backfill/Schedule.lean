import SlotIndex.Backfill.Messages

/-!
# The schedule of a backfill

Bins are started in order, at most a fixed number of them at a time. A bin that has been started has a
worker of its own, which asks the node, hands over the messages of the bin and ends. Once cancellation
has been noticed no further bin is started; the summary is sent when every worker has been joined. The
scheduler, the workers, the cancellation and the two receivers take their steps in any order.

* `Worker`, `Worker.step`: the work on one bin.
* `Schedule`, `Schedule.step`, `Schedule.run`: the states of a backfill and what can happen in each.
* `Schedule.summary?`: the summary, once the schedule is over.
-/

namespace SlotIndex

/-- What is reported at the end of a backfill. -/
structure Summary where
  bins : Nat
  completed : Nat
  cancelled : Bool
deriving DecidableEq

/-! ## Workers -/

/-- How far the work on a bin has come. -/
inductive Progress where
  /-- The node has not answered yet. -/
  | fetching
  /-- The node has answered; these messages are still to be handed over. -/
  | sending (rest : List BackfillMessage)
  /-- Nothing more happens; `completed` says whether the bin was worked off to its end. -/
  | ended (completed : Bool)

/-- A bin that has been started. -/
structure Worker where
  bin : Bin
  progress : Progress

/-- What a worker can do. -/
inductive WorkerAction where
  /-- List the heights of the bin and take the answer of the node for them. -/
  | fetch
  /-- Hand over the next message, or end early when its receiver is gone. -/
  | send
  /-- End after the last message. -/
  | finish
  /-- End early because cancellation has been requested. -/
  | stop
  /-- Break down. -/
  | breakDown
deriving DecidableEq

/-- The progress on a bin once its worker has listed the heights and the node has answered. The worker
breaks down before the node is asked if the heights cannot be listed. -/
def Bin.afterFetch (wanted : Option Selection) (node : Bin → Fetched) (b : Bin) : Progress :=
  if b.hasRoom then .sending (b.messages wanted (node b)) else .ended false

namespace Worker

/-- Whether nothing more happens to a worker. -/
def hasEnded (w : Worker) : Bool :=
  match w.progress with
  | .ended _ => true
  | .fetching | .sending _ => false

/-- The progress after an action and the messages that are handed over in it, if the worker can act
so. `node` is what the node answers for a bin and `accepts` says whose receiver is still there. -/
def step (wanted : Option Selection) (node : Bin → Fetched) (accepts : BackfillMessage → Bool)
    (cancelRequested : Bool) (w : Worker) : WorkerAction → Option (Progress × List BackfillMessage)
  | .fetch =>
    match w.progress with
    | .fetching => some (w.bin.afterFetch wanted node, [])
    | .sending _ | .ended _ => none
  | .send =>
    match w.progress with
    | .sending (m :: rest) =>
      if accepts m then some (.sending rest, [m]) else some (.ended false, [])
    | .sending [] | .fetching | .ended _ => none
  | .finish =>
    match w.progress with
    | .sending [] => some (.ended true, [])
    | .sending (_ :: _) | .fetching | .ended _ => none
  | .stop => if cancelRequested && !w.hasEnded then some (.ended false, []) else none
  | .breakDown => if w.hasEnded then none else some (.ended false, [])

end Worker

/-! ## The schedule -/

/-- The state of a backfill. -/
structure Schedule where
  total : Nat
  /-- How many bins may be worked off at a time. -/
  limit : Nat
  pending : List Bin
  /-- The workers that have been started and not yet joined. -/
  workers : List Worker
  completed : Nat
  /-- Whether cancellation has been requested. -/
  cancelRequested : Bool
  /-- Whether the scheduler has noticed the cancellation. -/
  cancelled : Bool
  diffsOpen : Bool
  errorsOpen : Bool
  /-- The messages that have been handed over, in order. -/
  sent : List BackfillMessage

/-- What can happen to a backfill. -/
inductive ScheduleEvent where
  /-- The next pending bin is started. -/
  | start
  /-- The worker at an index acts. -/
  | act (index : Nat) (action : WorkerAction)
  /-- The worker at an index, which has ended, is joined. -/
  | join (index : Nat)
  | requestCancel
  | noticeCancel
  /-- The receiver of diffs goes away. -/
  | closeDiffs
  /-- The receiver of errors goes away. -/
  | closeErrors
deriving DecidableEq

namespace Schedule

/-- The schedule of bins before anything has happened. At least one bin may be worked off. -/
def initial (bins : List Bin) (maxInFlight : Nat) : Schedule where
  total := bins.length
  limit := max 1 maxInFlight
  pending := bins
  workers := []
  completed := 0
  cancelRequested := false
  cancelled := false
  diffsOpen := true
  errorsOpen := true
  sent := []

/-- The most bins that may be worked off at a time. -/
def maxPermits : Nat := 2305843009213693951

/-- The schedule of bins before anything has happened. There is none, and the scheduler breaks down, if
more bins may be worked off at a time than can be counted. -/
def initial? (bins : List Bin) (maxInFlight : Nat) : Option Schedule :=
  if max 1 maxInFlight ≤ maxPermits then some (initial bins maxInFlight) else none

/-- Whether no worker is left and no bin is to be started. -/
def isOver (s : Schedule) : Bool := s.pending.isEmpty && s.workers.isEmpty

/-- The number of workers that have not ended. -/
def running (s : Schedule) : Nat := s.workers.countP fun w => !w.hasEnded

/-- Whether the receiver of a message is still there. -/
def accepts (s : Schedule) : BackfillMessage → Bool
  | .ok _ => s.diffsOpen
  | .error _ => s.errorsOpen

variable (wanted : Option Selection) (node : Bin → Fetched)

/-- The state after an event, if the event can happen. -/
def step (s : Schedule) : ScheduleEvent → Option Schedule
  | .start =>
    match s.pending with
    | [] => none
    | bin :: rest =>
      if s.running < s.limit then
        some { s with pending := rest, workers := s.workers ++ [⟨bin, .fetching⟩] }
      else none
  | .act index action =>
    match s.workers[index]? with
    | none => none
    | some w =>
      match w.step wanted node s.accepts s.cancelRequested action with
      | none => none
      | some (progress, sent) =>
        some { s with workers := s.workers.set index { w with progress }, sent := s.sent ++ sent }
  | .join index =>
    match s.workers[index]? with
    | some ⟨_, .ended completed⟩ =>
      some { s with
        workers := s.workers.eraseIdx index
        completed := if completed then s.completed + 1 else s.completed }
    | some ⟨_, .fetching⟩ | some ⟨_, .sending _⟩ | none => none
  | .requestCancel => some { s with cancelRequested := true }
  | .noticeCancel =>
    if s.cancelRequested && !s.cancelled && !s.isOver then
      some { s with pending := [], cancelled := true }
    else none
  | .closeDiffs => some { s with diffsOpen := false }
  | .closeErrors => some { s with errorsOpen := false }

/-- The state after events, if they can happen one after the other. -/
def run (s : Schedule) : List ScheduleEvent → Option Schedule
  | [] => some s
  | e :: events => (s.step wanted node e).bind fun t => run t events

/-- The summary, once the schedule is over. -/
def summary? (s : Schedule) : Option Summary :=
  if s.isOver then some ⟨s.total, s.completed, s.cancelled⟩ else none

end Schedule

end SlotIndex
