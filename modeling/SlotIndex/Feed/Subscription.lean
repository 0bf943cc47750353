import SlotIndex.Delivery
import SlotIndex.Diff.Payload
import SlotIndex.Feed.Tail

/-!
# Following a node

A node sends a payload for each new block. A payload that does not decode yields one error, any other
yields one message for each storage entry. The end of the stream is a failure of the source.

* `payloadMessages`: the messages of one payload.
* `runSubscription`: what is delivered of a finite stream, payload by payload, and how the run ends.
* `followStream`, `subscribe`: the same where every attempt to send changes the world, the stream may stay
  open, and the source may be cancelled between payloads.
-/

namespace SlotIndex

/-- The messages of one payload. -/
def payloadMessages (p : Payload) : List SourceMessage :=
  match p.decode with
  | .error e => [.error e]
  | .ok d => d.diffs

/-- The failure of a source whose stream has ended. -/
def streamClosed : StorageError := .node (.transport "state diff subscription closed")

/-- What is written to the health file once the subscription stands. -/
def healthText : String := "state diff subscription established\n"

/-- What is delivered of a finite stream of payloads when some messages have been delivered before, and
how the run ends. The next payload is taken once all messages of the one before have been delivered. -/
def subscriptionFrom (accepts : Nat → SourceMessage → Bool) :
    (sent : Nat) → List Payload → List SourceMessage × Except StorageError Unit
  | _, [] => ([], .error streamClosed)
  | sent, p :: rest =>
    let r := deliver accepts sent (payloadMessages p)
    if r.2 then
      let later := subscriptionFrom accepts (sent + r.1.length) rest
      (r.1 ++ later.1, later.2)
    else (r.1, .ok ())

/-- What is delivered of a finite stream of payloads, and how the run ends: without an error if a
message could not be delivered, else with the failure of the closed stream. -/
def runSubscription (accepts : Nat → SourceMessage → Bool) (payloads : List Payload) :
    List SourceMessage × Except StorageError Unit :=
  subscriptionFrom accepts 0 payloads

/-- Send what a payload yields. -/
def sendPayload {σ : Type} (o : Outlet σ SourceMessage) (p : Payload) (world : σ) : Bool × σ :=
  match p.decode with
  | .error e => o.send (.error e) world
  | .ok d => o.sendAll d.diffs world

/-- Follow a stream and send what its payloads yield. Behind the payloads the stream is closed, or else
nothing comes any more and the run goes on without a result. -/
def followStream {σ : Type} (o : Outlet σ SourceMessage) (closed : Bool) :
    List Payload → σ → Option (Except StorageError Unit) × σ
  | [], world =>
    match o.cancelled world with
    | (true, world) => (some (.ok ()), world)
    | (false, world) => (if closed then some (.error streamClosed) else none, world)
  | p :: rest, world =>
    match o.cancelled world with
    | (true, world) => (some (.ok ()), world)
    | (false, world) =>
      match sendPayload o p world with
      | (false, world) => (some (.ok ()), world)
      | (true, world) => followStream o closed rest world

/-- Subscribe and follow the stream. The subscription, or the health file that tells of it, can fail. -/
def subscribe {σ : Type} (o : Outlet σ SourceMessage) (established : Except StorageError Unit)
    (closed : Bool) (payloads : List Payload) (world : σ) : Option (Except StorageError Unit) × σ :=
  match established with
  | .error e => (some (.error e), world)
  | .ok () => followStream o closed payloads world

end SlotIndex
