import Mathlib.Data.List.Forall2
import SlotIndex.Proofs.Backfill.Attribution
import SlotIndex.Proofs.Backfill.Contribution
import SlotIndex.Proofs.Backfill.Partition
import SlotIndex.Proofs.Backfill.Sequence
import SlotIndex.Proofs.Diff.RoundTrip

/-!
# Every height is accounted for

Whatever the node answers, each height of a backfill is accounted for in exactly one way: its bin is
reported as a whole, or it could not be fetched, or it could not be decoded, or each of its wanted
storage entries has one message. What a height yields depends on its own result and on no other. Only the
heights of a bin that are too many to be listed are not accounted for: nobody hears of such a bin.

* `Ledger`, `Bin.ledger`: what a bin comes to, height by height; `messages_ledger`.
* `Way`, `Ledger.Accounts`: how a height is accounted for; `existsUnique_way`.
* `shares_ledger_congr`, `ledger_take`: what a height and a bin do not depend on.
* `Accounted`: messages that account for every height of bins.
* **`accounted_of_run`**: every undisturbed run, and the run that is computed.
* `unlisted_bin_unreported`: a bin of which nobody hears.
-/

namespace SlotIndex

/-! ## Ledgers -/

/-- What a bin comes to. -/
structure Ledger where
  /-- What is said about the bin as a whole. -/
  report : List BackfillMessage
  /-- What each height yields, in the order of the heights. -/
  shares : List (List BackfillMessage)

/-- The messages of a ledger. -/
def Ledger.messages (l : Ledger) : List BackfillMessage := l.report ++ l.shares.flatten

/-- What a bin comes to with an answer of the node. -/
def Bin.ledger (wanted : Option Selection) (b : Bin) : Fetched → Ledger
  | .error e => ⟨[.error (.fetch b.first b.last e)], b.heights.map fun _ => []⟩
  | .ok results =>
    ⟨[], b.heights.mapIdx fun i h => heightMessages wanted h (results[i]?.getD (missingResult h))⟩

/-- The storage entries of a state diff that are wanted, with their accounts. -/
def StateDiff.wantedEntries (wanted : Option Selection) (d : StateDiff) :
    List (AccountDiff × StorageEntry) :=
  d.entries.filter fun e => keepsEntry wanted e.1 e.2

/-- The message of a storage entry of a state diff that was fetched for a height: a diff, or the error
of its value. -/
def EntryMessage (d : StateDiff) (height : UInt64) (e : AccountDiff × StorageEntry)
    (m : BackfillMessage) : Prop :=
  match d.diffOf e.1 e.2 with
  | .ok x => m = .ok x
  | .error source => m = .error (.normalize height source)

/-- How a height is accounted for. -/
inductive Way where
  /-- By the error of its whole bin. -/
  | wholeBin
  /-- By an error of its own in place of a result. -/
  | notFetched
  /-- By an error of its own in place of a state diff. -/
  | notDecoded
  /-- By the messages of its storage entries. -/
  | decoded
deriving DecidableEq

/-- The height `h` at place `i` of a bin is accounted for in a way, with an answer of the node. -/
def Ledger.Accounts (l : Ledger) (wanted : Option Selection) (b : Bin) (fetched : Fetched) (i : Nat)
    (h : UInt64) : Way → Prop
  | .wholeBin => ∃ e, fetched = .error e ∧ l.messages = [.error (.fetch b.first b.last e)]
  | .notFetched => ∃ results e, fetched = .ok results ∧
      results[i]?.getD (missingResult h) = .error e ∧
      l.report = [] ∧ l.shares[i]? = some [.error (.fetch h h e)]
  | .notDecoded => ∃ results payload e, fetched = .ok results ∧ results[i]? = some (.ok payload) ∧
      payload.decode = .error e ∧
      l.report = [] ∧ l.shares[i]? = some [.error (.decode h e)]
  | .decoded => ∃ results payload d share, fetched = .ok results ∧
      results[i]? = some (.ok payload) ∧ payload.decode = .ok d ∧
      l.report = [] ∧ l.shares[i]? = some share ∧
      List.Forall₂ (EntryMessage d h) (d.wantedEntries wanted) share

variable {wanted : Option Selection}

theorem resultMessages_eq (heights : List UInt64) (results : List (Except StorageError Payload)) :
    resultMessages wanted heights results =
      (heights.mapIdx fun i h =>
        heightMessages wanted h (results[i]?.getD (missingResult h))).flatten := by
  induction heights generalizing results with
  | nil => rfl
  | cons h heights ih =>
    cases results with
    | nil => simp [resultMessages, ih]
    | cons r results => simp [resultMessages, ih]

/-- **The messages of a bin** are those of its ledger. -/
theorem messages_ledger (b : Bin) (fetched : Fetched) :
    (b.ledger wanted fetched).messages = b.messages wanted fetched := by
  cases fetched with
  | error e => simp [Bin.ledger, Ledger.messages, Bin.messages]
  | ok results => simp [Bin.ledger, Ledger.messages, Bin.messages, resultMessages_eq]

/-! ## Ways -/

theorem forall₂_messagesAt (d : StateDiff) (height : UInt64) :
    List.Forall₂ (EntryMessage d height) (d.wantedEntries wanted) (d.messagesAt wanted height) := by
  rw [StateDiff.messagesAt, keptEntries_eq_filter, List.forall₂_map_right_iff, StateDiff.wantedEntries,
    List.forall₂_same]
  intro e _
  unfold EntryMessage
  cases d.diffOf e.1 e.2 <;> rfl

theorem shares_ledger (wanted : Option Selection) (b : Bin)
    (results : List (Except StorageError Payload)) {i : Nat} {h : UInt64}
    (hi : b.heights[i]? = some h) :
    (b.ledger wanted (.ok results)).shares[i]? =
      some (heightMessages wanted h (results[i]?.getD (missingResult h))) := by
  simp [Bin.ledger, hi]

/-- The way in which the height at a place of a bin is accounted for. -/
def wayAt (fetched : Fetched) (i : Nat) : Way :=
  match fetched with
  | .error _ => .wholeBin
  | .ok results =>
    match results[i]? with
    | none | some (.error _) => .notFetched
    | some (.ok payload) =>
      match payload.decode with
      | .error _ => .notDecoded
      | .ok _ => .decoded

theorem accounts_ledger (b : Bin) (fetched : Fetched) {i : Nat} {h : UInt64}
    (hi : b.heights[i]? = some h) :
    (b.ledger wanted fetched).Accounts wanted b fetched i h (wayAt fetched i) := by
  cases fetched with
  | error e => exact ⟨e, rfl, messages_ledger b _⟩
  | ok results =>
    have hshare := shares_ledger wanted b results hi
    cases hr : results[i]? with
    | none =>
      have hway : wayAt (.ok results) i = .notFetched := by simp only [wayAt, hr]
      rw [hr] at hshare
      rw [hway]
      exact ⟨results, _, rfl, by rw [hr]; rfl, rfl, hshare⟩
    | some result =>
      rw [hr, Option.getD_some] at hshare
      cases result with
      | error e =>
        have hway : wayAt (.ok results) i = .notFetched := by simp only [wayAt, hr]
        rw [hway]
        exact ⟨results, e, rfl, by rw [hr]; rfl, rfl, hshare⟩
      | ok payload =>
        rw [heightMessages] at hshare
        cases hd : payload.decode with
        | error e =>
          have hway : wayAt (.ok results) i = .notDecoded := by simp only [wayAt, hr, hd]
          rw [hd] at hshare
          rw [hway]
          exact ⟨results, payload, e, rfl, hr, hd, rfl, hshare⟩
        | ok d =>
          have hway : wayAt (.ok results) i = .decoded := by simp only [wayAt, hr, hd]
          rw [hd] at hshare
          rw [hway]
          exact ⟨results, payload, d, _, rfl, hr, hd, rfl, hshare, forall₂_messagesAt d h⟩

theorem Ledger.Accounts.eq_wayAt {l : Ledger} {b : Bin} {fetched : Fetched} {i : Nat} {h : UInt64}
    {way : Way} (ha : l.Accounts wanted b fetched i h way) : way = wayAt fetched i := by
  cases way with
  | wholeBin =>
    obtain ⟨e, rfl, -⟩ := ha
    rfl
  | notFetched =>
    obtain ⟨results, e, rfl, hr, -⟩ := ha
    cases hi : results[i]? with
    | none => simp only [wayAt, hi]
    | some result =>
      rw [hi, Option.getD_some] at hr
      subst hr
      simp only [wayAt, hi]
  | notDecoded =>
    obtain ⟨results, payload, e, rfl, hr, hd, -⟩ := ha
    simp only [wayAt, hr, hd]
  | decoded =>
    obtain ⟨results, payload, d, share, rfl, hr, hd, -⟩ := ha
    simp only [wayAt, hr, hd]

/-- **A height is accounted for in exactly one way**, whatever the node answers for its bin. -/
theorem existsUnique_way (b : Bin) (fetched : Fetched) {i : Nat} {h : UInt64}
    (hi : b.heights[i]? = some h) :
    ∃! way, (b.ledger wanted fetched).Accounts wanted b fetched i h way :=
  ⟨wayAt fetched i, accounts_ledger b fetched hi, fun _ ha => ha.eq_wayAt⟩

/-! ## What does not matter -/

/-- What a height yields depends on no result but its own. -/
theorem shares_ledger_congr (b : Bin) {results results' : List (Except StorageError Payload)} {i : Nat}
    (hi : results[i]? = results'[i]?) :
    (b.ledger wanted (.ok results)).shares[i]? = (b.ledger wanted (.ok results')).shares[i]? := by
  cases h : b.heights[i]? with
  | none => simp [Bin.ledger, h]
  | some height => rw [shares_ledger wanted b results h, shares_ledger wanted b results' h, hi]

/-- Results without a height yield nothing. -/
theorem ledger_take (b : Bin) (results : List (Except StorageError Payload)) :
    b.ledger wanted (.ok (results.take b.heights.length)) = b.ledger wanted (.ok results) := by
  simp only [Bin.ledger, Ledger.mk.injEq, true_and]
  refine List.mapIdx_eq_mapIdx_iff.2 fun i hi => ?_
  rw [List.getElem?_take_of_lt hi]

/-! ## Runs -/

/-- Messages, once as they were sent and once with the bins that handed them over, account for every
height of bins. -/
structure Accounted (wanted : Option Selection) (bins : List Bin) (node : Bin → Fetched)
    (sent : List BackfillMessage) (trace : List (Bin × BackfillMessage)) : Prop where
  sent : sent = trace.map Prod.snd
  /-- No message comes from elsewhere. -/
  noOther : ∀ e ∈ trace, e.1 ∈ bins
  messages : ∀ b ∈ bins, ofBin b trace = (b.ledger wanted (node b)).messages
  way : ∀ b ∈ bins, ∀ i h, b.heights[i]? = some h →
    ∃! way, (b.ledger wanted (node b)).Accounts wanted b (node b) i h way

theorem Schedule.accounted {node : Bin → Fetched} {bins : List Bin} (hbins : bins.Nodup)
    {maxInFlight : Nat} {events : List ScheduleEvent} {s : Schedule}
    (he : ∀ e ∈ events, e.isCalm = true)
    (h : (initial bins maxInFlight).run wanted node events = some s) (hover : s.isOver = true) :
    Accounted wanted (bins.filter Bin.hasRoom) node s.sent
      ((initial bins maxInFlight).trace wanted node events) where
  sent := sent_run h
  noOther _ hmem := mem_of_mem_trace hbins he h hover hmem
  messages b hb := by
    obtain ⟨hmem, hroom⟩ := List.mem_filter.1 hb
    rw [ofBin_trace hbins he h hover b, if_pos hmem, Bin.yield, if_pos hroom, messages_ledger]
  way b _ _ _ hi := existsUnique_way b (node b) hi

variable (wanted)

/-- **No height is passed over and none counts twice**, whatever the node answers. The bins that a backfill
makes hold each height of its range once. An undisturbed run over them can be brought to its end, and when it
is over its messages account in exactly one way for every height of every bin whose heights can be listed,
which are all bins unless there is no room for the heights of a full one; nothing comes from the others. So
do the messages that are computed bin by bin. What a height yields depends on its own result alone, and
results without a height yield nothing. -/
theorem accounted_of_run {first last size : UInt64} {bins : List Bin} {maxInFlight : Nat}
    {start : Schedule} (hok : backfillBins first last size = .ok bins)
    (hstart : Schedule.initial? bins maxInFlight = some start) :
    bins.flatMap Bin.heights = Bin.heights ⟨first, last⟩ ∧ (Bin.heights ⟨first, last⟩).Nodup ∧
      (bins.filter Bin.hasRoom = bins ↔ RoomForHeights first last (usualSize size)) ∧
      (∀ node events s, (∀ e ∈ events, e.isCalm = true) → start.run wanted node events = some s →
        (∃ more t, (∀ e ∈ more, e.isCalm = true) ∧ s.run wanted node more = some t ∧
          t.isOver = true) ∧
        (s.isOver = true → Accounted wanted (bins.filter Bin.hasRoom) node s.sent
          (start.trace wanted node events))) ∧
      (∀ node, ∃ trace, Accounted wanted (bins.filter Bin.hasRoom) node
        (runBackfill wanted (fun _ => true) (fun _ b => some (node b)) false bins).messages trace) ∧
      (∀ (b : Bin) (results results' : List (Except StorageError Payload)) (i : Nat),
        results[i]? = results'[i]? →
          (b.ledger wanted (.ok results)).shares[i]? = (b.ledger wanted (.ok results')).shares[i]?) ∧
      ∀ (b : Bin) (results : List (Except StorageError Payload)),
        b.ledger wanted (.ok (results.take b.heights.length)) = b.ledger wanted (.ok results) := by
  have htiles := tiles_of_backfillBins hok
  have hbins : bins.Nodup := nodup_backfillBins hok
  obtain ⟨-, rfl⟩ := Schedule.initial?_eq_some hstart
  refine ⟨htiles.flatMap_heights, Bin.nodup_heights _,
    List.filter_eq_self.trans (forall_hasRoom_iff htiles), ?_, ?_, fun b _ _ _ => shares_ledger_congr b,
    ledger_take⟩
  · intro node events s he hrun
    have hinitial : Schedule.Calm wanted node bins (Schedule.initial bins maxInFlight) :=
      .initial bins maxInFlight
    exact ⟨(hinitial.run he hrun).1.exists_run, Schedule.accounted hbins he hrun⟩
  · intro node
    obtain ⟨events, s, he, hrun, hsent, hsummary⟩ :=
      runBackfill_is_run wanted node bins maxInFlight
    exact ⟨_, hsent ▸ Schedule.accounted hbins he hrun (Schedule.isOver_of_summary? hsummary)⟩

/-- A node that has one result for two heights, and none for a third. -/
def unevenNode (b : Bin) : Fetched :=
  if b = ⟨3, 3⟩ then .error (.io "gone") else .ok [.ok ⟨[], Payload.sampleDiff.encode⟩]

/-- Two workers, of which the second one ends first. -/
def unevenEvents : List ScheduleEvent :=
  [.start, .act 0 .fetch, .act 0 .send, .start, .act 1 .fetch, .act 1 .send, .act 0 .send,
    .act 1 .finish, .join 1, .act 0 .send, .act 0 .finish, .join 0]

theorem accounted_of_run_uneven :
    backfillBins 1 3 2 = .ok [⟨1, 2⟩, ⟨3, 3⟩] ∧ (∀ e ∈ unevenEvents, e.isCalm = true) ∧
      ∃ start s, Schedule.initial? [⟨1, 2⟩, ⟨3, 3⟩] 2 = some start ∧
        start.run none unevenNode unevenEvents = some s ∧ s.isOver = true ∧
        Accounted none [⟨1, 2⟩, ⟨3, 3⟩] unevenNode s.sent (start.trace none unevenNode unevenEvents) := by
  have hbins : backfillBins 1 3 2 = .ok [⟨1, 2⟩, ⟨3, 3⟩] := by rfl
  have hstart : Schedule.initial? [⟨1, 2⟩, ⟨3, 3⟩] 2 = some (.initial [⟨1, 2⟩, ⟨3, 3⟩] 2) :=
    if_pos (by decide)
  have hcalm : ∀ e ∈ unevenEvents, e.isCalm = true := by decide
  have hend : ((Schedule.initial [⟨1, 2⟩, ⟨3, 3⟩] 2).run none unevenNode unevenEvents).map
      Schedule.isOver = some true := by decide +kernel
  obtain ⟨-, -, -, hruns, -⟩ := accounted_of_run none hbins hstart
  obtain ⟨s, hrun, hover⟩ := Option.map_eq_some_iff.1 hend
  exact ⟨hbins, hcalm, _, s, hstart, hrun, hover, (hruns unevenNode unevenEvents s hcalm hrun).2 hover⟩

/-- All heights there are, in bins of as many as there are numbers, and a node that fails for every bin: the
first bin has heights, but the only message of a run that is over is that of the last height. -/
theorem unlisted_bin_unreported :
    (0 : UInt64) ∈ Bin.heights ⟨0, maxHeight - 1⟩ ∧
      ∃ bins events s, backfillBins 0 maxHeight maxHeight = .ok bins ∧ ⟨0, maxHeight - 1⟩ ∈ bins ∧
        (∀ e ∈ events, e.isCalm = true) ∧
        (Schedule.initial bins 1).run none (fun _ => .error (.io "gone")) events = some s ∧
        s.isOver = true ∧ s.sent = [.error (.fetch maxHeight maxHeight (.io "gone"))] := by
  have hbins : backfillBins 0 maxHeight maxHeight = .ok [⟨0, maxHeight - 1⟩, ⟨maxHeight, maxHeight⟩] := by
    decide
  have hmem : (0 : UInt64) ∈ Bin.heights ⟨0, maxHeight - 1⟩ :=
    List.mem_map.2 ⟨0, List.mem_range.2 (by decide), rfl⟩
  obtain ⟨events, s, he, hrun, hsent, hsummary⟩ := runBackfill_is_run none (fun _ => .error (.io "gone"))
    [⟨0, maxHeight - 1⟩, ⟨maxHeight, maxHeight⟩] 1
  refine ⟨hmem, _, events, s, hbins, List.mem_cons_self, he, hrun,
    Schedule.isOver_of_summary? hsummary, hsent.trans ?_⟩
  rw [runBackfill, if_neg Bool.false_ne_true, workOff_undisturbed]
  rfl

end SlotIndex
