/-!
# Delivery

A stage sends its messages one after the other. It stops at the first message that cannot be
delivered, because its receiver is gone or because the stage has been cancelled.

* `deliver`: the delivered messages, and whether all were.
* `deliver_prefix`: the delivered messages are a front part of all messages.
* `Outlet`, `Outlet.ofChannels`, `Outlet.sendAll`: the same where every attempt changes the world.
-/

namespace SlotIndex

/-- The messages that are delivered, and whether all were. `accepts n m` says whether `m` is
delivered after `n` messages. -/
def deliver {α : Type} (accepts : Nat → α → Bool) : (sent : Nat) → List α → List α × Bool
  | _, [] => ([], true)
  | sent, m :: rest =>
    if accepts sent m then
      let r := deliver accepts (sent + 1) rest
      (m :: r.1, r.2)
    else ([], false)

theorem deliver_prefix {α : Type} (accepts : Nat → α → Bool) (sent : Nat) (ms : List α) :
    (deliver accepts sent ms).1 <+: ms := by
  induction ms generalizing sent with
  | nil => simp [deliver]
  | cons m rest ih =>
    by_cases h : accepts sent m
    · simpa [deliver, h] using ih (sent + 1)
    · simp [deliver, h]

theorem deliver_complete_iff {α : Type} (accepts : Nat → α → Bool) (sent : Nat) (ms : List α) :
    (deliver accepts sent ms).2 ↔ (deliver accepts sent ms).1 = ms := by
  induction ms generalizing sent with
  | nil => simp [deliver]
  | cons m rest ih =>
    by_cases h : accepts sent m
    · simpa [deliver, h] using ih (sent + 1)
    · simp [deliver, h]

/-- Where a stage sends its messages to, as functions of the state `σ` of the world. -/
structure Outlet (σ α : Type) where
  /-- Whether the stage is cancelled before what it waits for has come. -/
  cancelled : σ → Bool × σ
  /-- Whether a message is delivered. It is not if the stage is cancelled first or nobody receives. -/
  send : α → σ → Bool × σ

namespace Outlet

variable {σ α : Type}

/-- Send messages one after the other, and whether all were delivered. -/
def sendAll (o : Outlet σ α) : List α → σ → Bool × σ
  | [], world => (true, world)
  | m :: rest, world =>
    match o.send m world with
    | (false, world) => (false, world)
    | (true, world) => o.sendAll rest world

/-- A stage that can be cancelled, with one channel for its results and one for its errors. -/
def ofChannels {ε : Type} (cancelled : σ → Bool × σ) (sendResult : α → σ → Bool × σ)
    (sendError : ε → σ → Bool × σ) : Outlet σ (Except ε α) where
  cancelled := cancelled
  send m world :=
    match cancelled world with
    | (true, world) => (false, world)
    | (false, world) =>
      match m with
      | .ok result => sendResult result world
      | .error e => sendError e world

/-- A stage that is not cancelled and whose world is what has been delivered. `accepts n m` says
whether `m` is delivered after `n` messages. -/
def accepting (accepts : Nat → α → Bool) : Outlet (List α) α where
  cancelled sent := (false, sent)
  send m sent := if accepts sent.length m then (true, sent ++ [m]) else (false, sent)

end Outlet

end SlotIndex
