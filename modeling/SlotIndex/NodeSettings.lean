import SlotIndex.Retry

/-!
# Settings of the node client

How many requests are sent to the node at a time, how many per second, and how they are tried again.

* `NodeSettings`, `NodeSettings.ofOptions`.
* `NodeSettings.batches`: the heights that are asked for at a time.
-/

namespace SlotIndex

/-- At most so many requests per second, each with a random wait between two bounds in
milliseconds. -/
structure RateLimit where
  perSecond : Nat
  minJitter : Nat := 5
  maxJitter : Nat := 50
deriving DecidableEq

/-- The settings of the node client. -/
structure NodeSettings where
  /-- The requests that are sent at a time. -/
  batchSize : Nat := 100
  rateLimit : Option RateLimit := none
  retry : RetryPolicy := {}

namespace NodeSettings

/-- The settings that options give. A batch holds at least one request, and a limit of zero is
none. -/
def ofOptions (batchSize perSecond maxRetries : Option Nat) : NodeSettings where
  batchSize := (batchSize.map (max 1)).getD 100
  rateLimit := (perSecond.filter (0 < ·)).map fun n => { perSecond := n }
  retry := (maxRetries.map fun n => { maxRetries := n }).getD {}

/-- Heights in batches, in at most the given number of steps. -/
def batchesFrom (size : Nat) : (steps : Nat) → List UInt64 → List (List UInt64)
  | 0, _ => []
  | _, [] => []
  | steps + 1, heights => heights.take size :: batchesFrom size steps (heights.drop size)

/-- The heights that are asked for at a time. -/
def batches (s : NodeSettings) (heights : List UInt64) : List (List UInt64) :=
  batchesFrom (max 1 s.batchSize) heights.length heights

end NodeSettings

end SlotIndex
