import SlotIndex.Backfill.Schedule

/-!
# The scheduler of a backfill

The scheduler goes round in a loop until no bin is left to start and no worker to join, and then sends the
summary. In each turn it asks for three things, one after the other and again from the first: whether the
backfill has been cancelled, whether a worker has ended, and whether one more worker may be started. It deals
with the first of them that is there, which ends the turn. The workers, the cancellation and the receivers do
not wait for it: anything may happen between two of its questions.

* `Poll`: what the scheduler asks for.
* `Supervision`, `Supervision.step`, `Supervision.run`: a backfill with its scheduler, and a record of
  what the scheduler has done.
* `Supervision.initial?`: a backfill before anything has happened.
-/

namespace SlotIndex

/-- What the scheduler asks for, in this order. -/
inductive Poll where
  | cancellation
  | workers
  | permit
deriving DecidableEq

/-- What the scheduler asks for when it has found nothing. -/
def Poll.next : Poll → Poll
  | .cancellation => .workers
  | .workers => .permit
  | .permit => .cancellation

/-- A backfill and its scheduler. -/
structure Supervision where
  schedule : Schedule
  /-- What the scheduler asks for next. -/
  poll : Poll
  /-- The bins that have been started, in order. -/
  started : List Bin
  /-- The bins whose workers have run to their ends, in order. -/
  finished : List Bin
  /-- The bins whose workers had ended early when they were joined, while no cancellation had been noticed,
  in order. -/
  missed : List Bin
  /-- The summaries that have been sent. -/
  reports : List Summary
  /-- Whether the scheduler has returned. -/
  returned : Bool

/-- What can happen to a backfill and its scheduler. -/
inductive SupervisionEvent where
  | of (e : ScheduleEvent)
  /-- The scheduler does not find what it asks for. -/
  | pass
  /-- The scheduler leaves its loop and sends the summary. -/
  | report
deriving DecidableEq

/-- The bin of a worker that runs to its end in an action. -/
def WorkerAction.finishedBin (bin : Bin) : WorkerAction → List Bin
  | .finish => [bin]
  | .fetch | .send | .stop | .breakDown => []

namespace Schedule

/-- The bin that is started in an event. -/
def startedBy (s : Schedule) : ScheduleEvent → List Bin
  | .start => s.pending.take 1
  | .act .. | .join _ | .requestCancel | .noticeCancel | .closeDiffs | .closeErrors => []

/-- The bin whose worker runs to its end in an event. -/
def finishedBy (s : Schedule) : ScheduleEvent → List Bin
  | .act index action => s.workers[index]?.toList.flatMap fun w => action.finishedBin w.bin
  | .start | .join _ | .requestCancel | .noticeCancel | .closeDiffs | .closeErrors => []

/-- The bin whose worker is joined in an event after it has ended early, unless a cancellation has been
noticed. -/
def missedBy (s : Schedule) : ScheduleEvent → List Bin
  | .join index =>
    match s.workers[index]? with
    | some ⟨bin, .ended false⟩ => if s.cancelled then [] else [bin]
    | some ⟨_, .ended true⟩ | some ⟨_, .fetching⟩ | some ⟨_, .sending _⟩ | none => []
  | .start | .act .. | .requestCancel | .noticeCancel | .closeDiffs | .closeErrors => []

/-- Whether there is a cancellation that has not been noticed. -/
def mustNotice (s : Schedule) : Bool := s.cancelRequested && !s.cancelled

end Schedule

namespace Supervision

/-- A backfill with a schedule in which nothing has happened. -/
def ofSchedule (schedule : Schedule) : Supervision :=
  ⟨schedule, .cancellation, [], [], [], [], false⟩

/-- A backfill before anything has happened. -/
def initial (bins : List Bin) (maxInFlight : Nat) : Supervision :=
  ofSchedule (Schedule.initial bins maxInFlight)

/-- A backfill before anything has happened, unless the scheduler breaks down at its start. -/
def initial? (bins : List Bin) (maxInFlight : Nat) : Option Supervision :=
  (Schedule.initial? bins maxInFlight).map ofSchedule

/-- Whether the scheduler lets an event happen: what it does by itself, it does when it has asked for it.
Everything else can always happen. -/
def allows (s : Supervision) : ScheduleEvent → Bool
  | .noticeCancel => !s.returned && s.poll = .cancellation
  | .join _ => !s.returned && s.poll = .workers
  | .start => !s.returned && s.poll = .permit
  | .act .. | .requestCancel | .closeDiffs | .closeErrors => true

/-- What the scheduler asks for after an event. What it does by itself ends a turn. -/
def pollAfter (s : Supervision) : ScheduleEvent → Poll
  | .noticeCancel | .join _ | .start => .cancellation
  | .act .. | .requestCancel | .closeDiffs | .closeErrors => s.poll

/-- Whether the scheduler can fail to find what it asks for. It finds a cancellation. A worker has to end
some time before it is found, and so has its permit to be given back. -/
def canPass (s : Supervision) : Bool :=
  !s.returned && !s.schedule.isOver && !(s.poll = .cancellation && s.schedule.mustNotice)

variable (wanted : Option Selection) (node : Bin → Fetched)

/-- The state after an event, if the event can happen. -/
def step (s : Supervision) : SupervisionEvent → Option Supervision
  | .of e =>
    if s.allows e then
      (s.schedule.step wanted node e).map fun t =>
        { s with
          schedule := t
          poll := s.pollAfter e
          started := s.started ++ s.schedule.startedBy e
          finished := s.finished ++ s.schedule.finishedBy e
          missed := s.missed ++ s.schedule.missedBy e }
    else none
  | .pass => if s.canPass then some { s with poll := s.poll.next } else none
  | .report =>
    if !s.returned && s.poll = .cancellation then
      s.schedule.summary?.map fun summary =>
        { s with reports := s.reports ++ [summary], returned := true }
    else none

/-- The state after events, if they can happen one after the other. -/
def run (s : Supervision) : List SupervisionEvent → Option Supervision
  | [] => some s
  | e :: events => (s.step wanted node e).bind fun t => run t events

end Supervision

end SlotIndex
