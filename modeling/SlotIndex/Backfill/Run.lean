import SlotIndex.Backfill.Messages
import SlotIndex.Backfill.Schedule

/-!
# Running a backfill

The bins of a range are worked off one after the other. The node is asked once for each bin, unless
there is no room for the heights of the bin.

* `backfillBins`: the bins of a range; a batch size of zero stands for the usual one.
* `runBackfill`: the delivered messages, the bins that were asked for and how the run ended.
-/

namespace SlotIndex

/-- The heights of a bin when nothing else is said. -/
def defaultBatchSize : UInt64 := 1000

/-- The bins of a range. A batch size of zero stands for the usual one. -/
def backfillBins (first last size : UInt64) : Except SplitFault (List Bin) :=
  splitRange first last (if size = 0 then defaultBatchSize else size)

/-- What a backfill has come to. -/
structure BackfillRun where
  /-- The delivered messages, in order. -/
  messages : List BackfillMessage
  /-- The bins that the node was asked for, in order. -/
  asked : List Bin
  /-- The number of bins that were worked off to their end. -/
  completed : Nat
  cancelled : Bool

/-- The summary of a run over bins. -/
def BackfillRun.summary (r : BackfillRun) (bins : List Bin) : Summary :=
  ⟨bins.length, r.completed, r.cancelled⟩

/-- Work off bins, where the node is asked with a number. The answer to a bin is missing when the backfill
is cancelled before it comes; no further bin is started then. The work on a bin whose heights cannot be
listed breaks down before the node is asked. -/
def workOff (wanted : Option Selection) (accepts : BackfillMessage → Bool)
    (answer : Nat → Bin → Option Fetched) : (number : Nat) → List Bin → BackfillRun
  | _, [] => ⟨[], [], 0, false⟩
  | number, bin :: rest =>
    if bin.hasRoom then
      let fetched := answer number bin
      let (messages, completed) := bin.process wanted (fun _ => accepts) fetched
      if fetched.isNone then ⟨messages, [bin], 0, true⟩
      else
        let r := workOff wanted accepts answer (number + 1) rest
        ⟨messages ++ r.messages, bin :: r.asked, (if completed then 1 else 0) + r.completed,
          r.cancelled⟩
    else workOff wanted accepts answer number rest

/-- Work off bins one after the other. A backfill that is cancelled before its start asks for
none. -/
def runBackfill (wanted : Option Selection) (accepts : BackfillMessage → Bool)
    (answer : Nat → Bin → Option Fetched) (cancelled : Bool) (bins : List Bin) : BackfillRun :=
  if cancelled then ⟨[], [], 0, true⟩ else workOff wanted accepts answer 1 bins

end SlotIndex
