import SlotIndex.Diff
import SlotIndex.Watch.Registry

/-!
# The watcher

The watcher hands each diff to the transformer of its contract. Diffs come from a live channel and,
at every tick, from the retry queue. A live diff whose key is not known yet is queued and tried again
until it succeeds or its attempts are used up. No failure of a single diff ends the watcher.

* `Collaborators`: what the watcher works with, over an arbitrary state of the world.
* `Watcher.process`: one diff.
* `Watcher.drain`: one pass over the retry queue.
* `Watcher.step`: one event of the loop.
-/

namespace SlotIndex

/-- Transformers, diff table and retry queue, as functions of the state `σ` of the world. -/
structure Collaborators (σ T : Type) where
  execute : T → StoredDiff → σ → Except StorageError Unit × σ
  markChecked : DiffId → σ → Except StorageError Unit × σ
  add : DiffId → σ → Except StorageError Unit × σ
  delete : DiffId → σ → Except StorageError Unit × σ
  queued : σ → Except StorageError (List StoredDiff) × σ
  recordFailedAttempt : DiffId → σ → Except StorageError Nat × σ

/-- What ends a watcher with an error. -/
inductive WatchError where
  | noTransformers
  | source (error : StorageError)
deriving DecidableEq

/-- The wording of an error. -/
def WatchError.message : WatchError → String
  | .noTransformers => "No transformers added to watcher"
  | .source error => s!"Storage diff source failed: {error.message}"

/-- The watcher and the world around it. -/
structure Watcher (σ T : Type) where
  registry : Registry T
  world : σ
  /-- How the watcher has ended, if it has. -/
  ended : Option (Except WatchError Unit)

/-- What happens to a running watcher. -/
inductive WatchEvent where
  /-- The next item of the live channel. -/
  | live (item : Except StorageError StoredDiff)
  | tick
  /-- The live channel closes. -/
  | close
  | cancel

namespace Watcher

variable {σ T : Type} (c : Collaborators σ T) (maxAttempts : Nat)

/-- What follows on the attempt of a transformer. -/
def settle (d : StoredDiff) (origin : DiffOrigin) (result : Except StorageError Unit)
    (world : σ) : σ :=
  match result, origin with
  | .ok (), .live => world
  | .ok (), .queue => (c.delete d.id world).2
  | .error e, .live => if e.kind = .keyNotFound then (c.add d.id world).2 else world
  | .error e, .queue =>
    if e.kind = .keyNotFound then
      match c.recordFailedAttempt d.id world with
      | (.ok attempts, world) =>
        if max 1 maxAttempts ≤ attempts then (c.delete d.id world).2 else world
      | (.error _, world) => world
    else world

/-- Hand a diff to its transformer. A queued diff without a transformer is removed. -/
def dispatch (d : StoredDiff) (origin : DiffOrigin) (transformer : Option T) (world : σ) : σ :=
  match transformer with
  | some t =>
    let (result, world) := c.execute t d world
    settle c maxAttempts d origin result world
  | none =>
    match origin with
    | .live => world
    | .queue => (c.delete d.id world).2

/-- Deal with one diff. A live diff is marked as checked, whatever has come of it. -/
def process (w : Watcher σ T) (d : StoredDiff) (origin : DiffOrigin) : Watcher σ T :=
  let (transformer, registry) := w.registry.resolve d.diff.account
  let world := dispatch c maxAttempts d origin transformer w.world
  let world := if origin = .live then (c.markChecked d.id world).2 else world
  { w with registry, world }

/-- Deal with every diff in the retry queue. -/
def drain (w : Watcher σ T) : Watcher σ T :=
  match c.queued w.world with
  | (.error _, world) => { w with world }
  | (.ok queued, world) =>
    queued.foldl (fun w d => w.process c maxAttempts d .queue) { w with world }

/-- One event. A watcher that has ended takes no notice. -/
def step (w : Watcher σ T) (e : WatchEvent) : Watcher σ T :=
  if w.ended.isSome then w
  else
    match e with
    | .live (.ok d) => w.process c maxAttempts d .live
    | .live (.error e) => { w with ended := some (.error (.source e)) }
    | .tick => w.drain c maxAttempts
    | .close | .cancel => { w with ended := some (.ok ()) }

/-- A watcher before its first event. Without transformers it ends at once. -/
def start (registry : Registry T) (world : σ) : Watcher σ T where
  registry
  world
  ended :=
    if registry.transformers.entries.isEmpty then some (.error .noTransformers) else none

/-- Events one after the other. -/
def run (w : Watcher σ T) (events : List WatchEvent) : Watcher σ T :=
  events.foldl (fun w e => w.step c maxAttempts e) w

end Watcher

end SlotIndex
