import Mathlib.Data.List.Forall2
import SlotIndex.Feed.Subscription
import SlotIndex.Proofs.Backfill.Accounting
import SlotIndex.Proofs.Diff.Entries

/-!
# A node that is followed, and a backfill

The state diff of a block reaches the index live, when the node is followed, or in a backfill. Both go
through its accounts and storage entries, each in its own way, and hand over the same diffs in the same
order, with errors of the same causes in between.

* `PayloadYields`: what a payload comes to while a node is followed.
* `subscriptionFrom_eq`: a stream is worked off payload by payload.
* `Repeats`: what a message of a backfill has in common with one of a node that is followed.
* `repeats_heightMessages`: the messages of a height repeat those of its payload.
* **`agrees_with_backfill`**: both sources together.
-/

namespace SlotIndex

/-! ## Payload by payload -/

/-- What a payload comes to while a node is followed: one error if it does not decode, and else the diff
or the error of each storage entry, account by account. -/
inductive PayloadYields (p : Payload) : List SourceMessage → Prop where
  | undecoded {e : StorageError} (h : p.decode = .error e) : PayloadYields p [.error e]
  | entries {d : StateDiff} (h : p.decode = .ok d) :
      PayloadYields p (d.accounts.flatMap fun account => account.storage.map (d.diffOf account))

theorem payloadYields_payloadMessages (p : Payload) : PayloadYields p (payloadMessages p) := by
  cases hp : p.decode with
  | error e =>
    simp only [payloadMessages, hp]
    exact .undecoded hp
  | ok d =>
    simp only [payloadMessages, hp, d.diffs_eq]
    exact .entries hp

/-- With everything delivered, a stream yields what its payloads yield, one after the other. -/
theorem subscriptionFrom_eq (sent : Nat) (payloads : List Payload) :
    subscriptionFrom (fun _ _ => true) sent payloads =
      (payloads.flatMap payloadMessages, .error streamClosed) := by
  induction payloads generalizing sent with
  | nil => rfl
  | cons p payloads ih =>
    simp only [subscriptionFrom, deliver_all, ih, if_true, List.flatMap_cons]

/-! ## The same payload in a backfill -/

/-- A message of a backfill for a height repeats a message of a node that is followed: both are the same
diff, or both are errors with the same cause. The cause lies in the payload if it does not decode, and in
one of its storage entries if it does. -/
inductive Repeats (p : Payload) (height : UInt64) : SourceMessage → BackfillMessage → Prop where
  | diff (x : Diff) : Repeats p height (.ok x) (.ok x)
  | undecoded {e : StorageError} (h : p.decode = .error e) :
      Repeats p height (.error e) (.error (.decode height e))
  | entry {d : StateDiff} (h : p.decode = .ok d) (e : StorageError) :
      Repeats p height (.error e) (.error (.normalize height e))

theorem repeats_heightMessages (p : Payload) (height : UInt64) :
    List.Forall₂ (Repeats p height) (payloadMessages p) (heightMessages none height (.ok p)) := by
  cases hp : p.decode with
  | error e =>
    simp only [payloadMessages, heightMessages, hp]
    exact .cons (.undecoded hp) .nil
  | ok d =>
    -- Without a selection every entry is kept, so both lists have one message for each entry.
    have hkept : d.keptEntries none = d.entries := by
      rw [keptEntries_eq_filter]
      exact List.filter_eq_self.2 fun _ _ => rfl
    simp only [payloadMessages, heightMessages, hp, StateDiff.messagesAt, hkept, StateDiff.diffs,
      List.forall₂_map_left_iff, List.forall₂_map_right_iff, List.forall₂_same]
    intro e _
    cases d.diffOf e.1 e.2 with
    | error cause => exact .entry hp cause
    | ok x => exact .diff x

variable {p : Payload} {height : UInt64} {live : List SourceMessage} {sent : List BackfillMessage}

/-- Messages that are repeated are repeated with all their diffs, in their order. -/
theorem diffsOf_of_repeats (h : List.Forall₂ (Repeats p height) live sent) :
    diffsOf sent = live.filterMap Except.toOption := by
  induction h with
  | nil => rfl
  | cons hm _ ih =>
    rw [diffsOf] at ih ⊢
    cases hm with
    | diff x => exact congrArg (x :: ·) ih
    | undecoded | entry => exact ih

/-- The cause of an error, if it is about a payload or about a storage entry. -/
def BackfillError.cause? : BackfillError → Option StorageError
  | .decode _ cause | .normalize _ cause => some cause
  | .invalidRange .. | .zeroBatchSize | .fetch .. => none

/-- Messages that are repeated are repeated with the causes of all their errors, in their order. -/
theorem causes_of_repeats (h : List.Forall₂ (Repeats p height) live sent) :
    (errorsOf sent).map BackfillError.cause? = (live.filterMap errorOf?).map some := by
  induction h with
  | nil => rfl
  | cons hm _ ih =>
    rw [errorsOf] at ih ⊢
    cases hm with
    | diff => exact ih
    | undecoded | entry => exact congrArg (some _ :: ·) ih

/-! ## Both sources -/

/-- A bin without a selection is worked off with the messages of all its heights. -/
theorem process_eq_shares (b : Bin) (results : List (Except StorageError Payload)) :
    b.process none (fun _ _ => true) (some (.ok results)) =
      ((b.ledger none (.ok results)).shares.flatten, true) := by
  have hmessages : (b.ledger none (.ok results)).messages = b.messages none (.ok results) :=
    messages_ledger b (.ok results)
  rw [Bin.process, deliver_all, ← hmessages, Ledger.messages]
  rfl

/-- Heights that are answered with payloads, one for each, have the diffs of the payloads. -/
theorem diffsOf_resultMessages {heights : List UInt64} {payloads : List Payload}
    (h : heights.length = payloads.length) :
    diffsOf (resultMessages none heights (payloads.map .ok)) =
      (payloads.flatMap payloadMessages).filterMap Except.toOption := by
  induction payloads generalizing heights with
  | nil =>
    rw [List.eq_nil_of_length_eq_zero h]
    rfl
  | cons p payloads ih =>
    cases heights with
    | nil => contradiction
    | cons height heights =>
      have hrest := ih (Nat.succ.inj h)
      have hown := diffsOf_of_repeats (repeats_heightMessages p height)
      rw [diffsOf] at hrest hown ⊢
      rw [List.map_cons, resultMessages, List.filterMap_append, hrest, hown, List.flatMap_cons,
        List.filterMap_append]

/-- **A node that is followed and a backfill agree.** With nobody gone, a finite stream yields what its
payloads yield, payload by payload, and then ends with a failure to reach the node. Where the node answers
a height of a bin with one of these payloads, what is sent for the height in a backfill without a
selection repeats what the payload yields: the same diffs in the same order, and as many errors of the
same causes. A bin that is answered with the payloads of the stream, one for each height, is worked off
with the same diffs as the stream. -/
theorem agrees_with_backfill (payloads : List Payload) :
    ∃ yields : List (List SourceMessage), List.Forall₂ PayloadYields payloads yields ∧
      runSubscription (fun _ _ => true) payloads = (yields.flatten, .error streamClosed) ∧
      streamClosed.kind = .transport ∧
      (∀ (b : Bin) (results : List (Except StorageError Payload)),
        b.process none (fun _ _ => true) (some (.ok results)) =
          ((b.ledger none (.ok results)).shares.flatten, true) ∧
        ∀ (i j : Nat) (p : Payload) (height : UInt64), payloads[i]? = some p →
          b.heights[j]? = some height → results[j]? = some (.ok p) →
          ∃ live sent, yields[i]? = some live ∧
            (b.ledger none (.ok results)).shares[j]? = some sent ∧
            List.Forall₂ (Repeats p height) live sent ∧
            diffsOf sent = live.filterMap Except.toOption ∧
            (errorsOf sent).map BackfillError.cause? = (live.filterMap errorOf?).map some) ∧
      ∀ b : Bin, b.heights.length = payloads.length →
        diffsOf (b.process none (fun _ _ => true) (some (.ok (payloads.map .ok)))).1 =
          (runSubscription (fun _ _ => true) payloads).1.filterMap Except.toOption := by
  have hrun := subscriptionFrom_eq 0 payloads
  refine ⟨payloads.map payloadMessages, ?_, hrun, rfl, ?_, ?_⟩
  · rw [List.forall₂_map_right_iff, List.forall₂_same]
    exact fun p _ => payloadYields_payloadMessages p
  · intro b results
    refine ⟨process_eq_shares b results, ?_⟩
    intro i j p height hi hj hp
    have hrepeats := repeats_heightMessages p height
    have hshare := shares_ledger none b results hj
    rw [hp, Option.getD_some] at hshare
    refine ⟨_, _, ?_, hshare, hrepeats, diffsOf_of_repeats hrepeats, causes_of_repeats hrepeats⟩
    rw [List.getElem?_map, hi, Option.map_some]
  · intro b hlength
    rw [runSubscription, hrun, Bin.process, deliver_all]
    exact diffsOf_resultMessages hlength

/-- A payload that does not decode in front of one with two storage entries, of which one has a value that
does not decode. -/
def samplePayloads : List Payload := [⟨[], []⟩, ⟨[], Payload.sampleDiff.encode⟩]

theorem agrees_with_backfill_sample :
    let p : Payload := ⟨[], Payload.sampleDiff.encode⟩
    let results : List (Except StorageError Payload) := [.ok p]
    samplePayloads[1]? = some p ∧ (Bin.heights ⟨5, 6⟩)[0]? = some 5 ∧ results[0]? = some (.ok p) ∧
      (Bin.heights ⟨5, 6⟩).length = samplePayloads.length ∧
      ∃ live sent, (Bin.ledger none ⟨5, 6⟩ (.ok results)).shares[0]? = some sent ∧
        List.Forall₂ (Repeats p 5) live sent ∧
        diffsOf (Bin.process none (fun _ _ => true) ⟨5, 6⟩ (some (.ok (samplePayloads.map .ok)))).1 =
          (runSubscription (fun _ _ => true) samplePayloads).1.filterMap Except.toOption := by
  intro p results
  have hheight : (Bin.heights ⟨5, 6⟩)[0]? = some 5 := by decide
  have hlength : (Bin.heights ⟨5, 6⟩).length = samplePayloads.length := by decide
  obtain ⟨yields, -, -, -, hbins, hall⟩ := agrees_with_backfill samplePayloads
  obtain ⟨-, hheights⟩ := hbins ⟨5, 6⟩ results
  obtain ⟨live, sent, -, hsent, hrepeats, -⟩ := hheights 1 0 p 5 rfl hheight rfl
  exact ⟨rfl, hheight, rfl, hlength, live, sent, hsent, hrepeats, hall ⟨5, 6⟩ hlength⟩

end SlotIndex
