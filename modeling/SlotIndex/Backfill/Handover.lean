import SlotIndex.Backfill.Messages

/-!
# Handing over a bin

A bin is worked off height by height, account by account and entry by entry, and every message is sent
as soon as it is known. A message that cannot be delivered ends all loops.

* `sendEntries`, `sendAccounts`, `sendHeight`, `sendHeights`: the loops, innermost first.
* `Bin.handOver`: whether the bin was worked off to its end.
-/

namespace SlotIndex

variable {σ : Type} (o : Outlet σ BackfillMessage) (wanted : Option Selection)

/-- Send the kept storage entries of an account. -/
def sendEntries (height : UInt64) (d : StateDiff) (account : AccountDiff) :
    List StorageEntry → σ → Bool × σ
  | [], world => (true, world)
  | entry :: rest, world =>
    if keepsEntry wanted account entry then
      match o.send ((d.diffOf account entry).mapError (.normalize height)) world with
      | (false, world) => (false, world)
      | (true, world) => sendEntries height d account rest world
    else sendEntries height d account rest world

/-- Send the kept storage entries of the kept accounts. -/
def sendAccounts (height : UInt64) (d : StateDiff) : List AccountDiff → σ → Bool × σ
  | [], world => (true, world)
  | account :: rest, world =>
    if keepsAccount wanted account then
      match sendEntries o wanted height d account account.storage world with
      | (false, world) => (false, world)
      | (true, world) => sendAccounts height d rest world
    else sendAccounts height d rest world

/-- Send what the result for a height yields. -/
def sendHeight (height : UInt64) : Except StorageError Payload → σ → Bool × σ
  | .error e, world => o.send (.error (.fetch height height e)) world
  | .ok payload, world =>
    match payload.decode with
    | .error e => o.send (.error (.decode height e)) world
    | .ok d => sendAccounts o wanted height d d.accounts world

/-- Send what heights and the results for them yield. -/
def sendHeights : List UInt64 → List (Except StorageError Payload) → σ → Bool × σ
  | [], _, world => (true, world)
  | height :: heights, results, world =>
    match sendHeight o wanted height (results.head?.getD (missingResult height)) world with
    | (false, world) => (false, world)
    | (true, world) => sendHeights heights results.tail world

/-- Send what the answer of the node for a bin yields, unless the stage is cancelled while it waits for
the answer. -/
def Bin.handOver (b : Bin) (fetched : Fetched) (world : σ) : Bool × σ :=
  match o.cancelled world with
  | (true, world) => (false, world)
  | (false, world) =>
    match fetched with
    | .error e => o.send (.error (.fetch b.first b.last e)) world
    | .ok results => sendHeights o wanted b.heights results world

end SlotIndex
