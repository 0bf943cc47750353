import SlotIndex.Backfill.Range
import SlotIndex.Backfill.Selection
import SlotIndex.Delivery
import SlotIndex.Diff.Payload

/-!
# Messages of a bin

What a bin of heights yields from the answer of the node: one message for a height that fails, and
one message for each chosen storage entry of a height that decodes.

* `Bin.messages`: all messages, in order.
* `Bin.process`: the messages that are delivered, and whether the bin was worked off to its end.
-/

namespace SlotIndex

/-- What is sent to a consumer: a diff, or an error in place of one. -/
abbrev BackfillMessage := Except BackfillError Diff

/-- The answer of a node for the heights of a bin: one result for each height, or a failure of the
whole request. -/
abbrev Fetched := Except StorageError (List (Except StorageError Payload))

/-- The result of a height for which the node gave none. -/
def missingResult (height : UInt64) : Except StorageError Payload :=
  .error (.node (.provider s!"no state diff returned for block {Decimal.text height.toNat}"))

/-- Whether an account is to be kept. Without a selection all are. -/
def keepsAccount (wanted : Option Selection) (account : AccountDiff) : Bool :=
  wanted.all fun s => s.wantsAccount (Word.ofBytes account.key)

/-- Whether a storage entry of an account is to be kept. -/
def keepsEntry (wanted : Option Selection) (account : AccountDiff) (entry : StorageEntry) : Bool :=
  wanted.all fun s => s.wantsSlot (Word.ofBytes account.key) (Word.ofBytes entry.key)

/-- The kept storage entries of a state diff, with their accounts. -/
def StateDiff.keptEntries (wanted : Option Selection) (d : StateDiff) :
    List (AccountDiff × StorageEntry) :=
  (d.accounts.filter (keepsAccount wanted)).flatMap fun account =>
    (account.storage.filter (keepsEntry wanted account)).map fun entry => (account, entry)

/-- The messages of a state diff that was fetched for a height. -/
def StateDiff.messagesAt (wanted : Option Selection) (height : UInt64) (d : StateDiff) :
    List BackfillMessage :=
  (d.keptEntries wanted).map fun e => (d.diffOf e.1 e.2).mapError (.normalize height)

/-- The messages of one height. -/
def heightMessages (wanted : Option Selection) (height : UInt64) :
    Except StorageError Payload → List BackfillMessage
  | .error e => [.error (.fetch height height e)]
  | .ok payload =>
    match payload.decode with
    | .error e => [.error (.decode height e)]
    | .ok d => d.messagesAt wanted height

/-- The messages of heights and the results for them. Results without a height yield nothing. -/
def resultMessages (wanted : Option Selection) :
    List UInt64 → List (Except StorageError Payload) → List BackfillMessage
  | [], _ => []
  | h :: heights, [] =>
    heightMessages wanted h (missingResult h) ++ resultMessages wanted heights []
  | h :: heights, r :: results => heightMessages wanted h r ++ resultMessages wanted heights results

namespace Bin

/-- The messages of a bin, in the order in which they are sent. -/
def messages (wanted : Option Selection) (b : Bin) : Fetched → List BackfillMessage
  | .error e => [.error (.fetch b.first b.last e)]
  | .ok results => resultMessages wanted b.heights results

/-- The delivered messages of a bin, and whether it was worked off to its end. A bin that is
cancelled while it fetches sends nothing. -/
def process (wanted : Option Selection) (accepts : Nat → BackfillMessage → Bool) (b : Bin) :
    Option Fetched → List BackfillMessage × Bool
  | none => ([], false)
  | some fetched => deliver accepts 0 (b.messages wanted fetched)

end Bin

end SlotIndex
