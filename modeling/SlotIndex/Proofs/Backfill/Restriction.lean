import Mathlib.Data.List.Basic
import SlotIndex.Proofs.Backfill.Contribution
import SlotIndex.Proofs.Backfill.Sequence
import SlotIndex.Proofs.Diff.RoundTrip

/-!
# Restricted backfills

A backfill that is restricted to a selection hands over what the full backfill hands over, without the
diffs and the errors of the storage entries that are not selected. The selection is looked up twice on
the bytes of an entry, once for its account and once for its key, and comes to the same as a look at the
diff of the entry.

* `Traced`, `Bin.traced`: the messages of a bin with the storage entries that they are about.
* **`messages_eq_traced`**: the messages of a restricted bin, among those of the full one.
* `blockErrors`, `entryErrors`: errors of bins and heights, and errors of storage entries.
* `Restricted`: what the messages of a restricted backfill are to those of the full one.
* **`restricted_of_runs`**: every two undisturbed runs, and the two that are computed.
-/

namespace SlotIndex

/-! ## Messages and their entries -/

/-- A message with the storage entry and the account that it is about. The error of a bin or of a height
is about none. -/
structure Traced where
  about? : Option (AccountDiff × StorageEntry)
  message : BackfillMessage

/-- Whether a message is about an entry that is to be kept, or about none. -/
def Traced.isWanted (wanted : Option Selection) (m : Traced) : Bool :=
  m.about?.all fun e => keepsEntry wanted e.1 e.2

/-- The messages of all storage entries of a state diff. -/
def StateDiff.traced (height : UInt64) (d : StateDiff) : List Traced :=
  d.entries.map fun e => ⟨some e, (d.diffOf e.1 e.2).mapError (.normalize height)⟩

/-- The messages of a height. -/
def heightTraced (height : UInt64) : Except StorageError Payload → List Traced
  | .error e => [⟨none, .error (.fetch height height e)⟩]
  | .ok payload =>
    match payload.decode with
    | .error e => [⟨none, .error (.decode height e)⟩]
    | .ok d => d.traced height

/-- The messages of heights and the results for them. -/
def resultTraced : List UInt64 → List (Except StorageError Payload) → List Traced
  | [], _ => []
  | h :: heights, [] => heightTraced h (missingResult h) ++ resultTraced heights []
  | h :: heights, r :: results => heightTraced h r ++ resultTraced heights results

/-- The messages of a bin. -/
def Bin.traced (b : Bin) : Fetched → List Traced
  | .error e => [⟨none, .error (.fetch b.first b.last e)⟩]
  | .ok results => resultTraced b.heights results

/-- The messages of a list that are wanted, without the entries that they are about. -/
def wantedMessages (wanted : Option Selection) (ms : List Traced) : List BackfillMessage :=
  (ms.filter (Traced.isWanted wanted)).map Traced.message

theorem wantedMessages_append (wanted : Option Selection) (front back : List Traced) :
    wantedMessages wanted (front ++ back) =
      wantedMessages wanted front ++ wantedMessages wanted back := by
  rw [wantedMessages, List.filter_append, List.map_append]
  rfl

/-- Without a selection everything is wanted. -/
theorem wantedMessages_none (ms : List Traced) : wantedMessages none ms = ms.map Traced.message := by
  have hall : ms.filter (Traced.isWanted none) = ms :=
    List.filter_eq_self.2 fun m _ => by cases h : m.about? <;> simp [Traced.isWanted, keepsEntry, h]
  rw [wantedMessages, hall]

theorem messagesAt_eq_traced (wanted : Option Selection) (height : UInt64) (d : StateDiff) :
    d.messagesAt wanted height = wantedMessages wanted (d.traced height) := by
  rw [StateDiff.messagesAt, keptEntries_eq_filter, wantedMessages, StateDiff.traced,
    List.filter_map, List.map_map]
  rfl

theorem heightMessages_eq_traced (wanted : Option Selection) (height : UInt64)
    (result : Except StorageError Payload) :
    heightMessages wanted height result = wantedMessages wanted (heightTraced height result) := by
  cases result with
  | error e => rfl
  | ok payload =>
    rw [heightMessages, heightTraced]
    cases payload.decode with
    | error e => rfl
    | ok d => exact messagesAt_eq_traced wanted height d

theorem resultMessages_eq_traced (wanted : Option Selection) (heights : List UInt64)
    (results : List (Except StorageError Payload)) :
    resultMessages wanted heights results = wantedMessages wanted (resultTraced heights results) := by
  induction heights generalizing results with
  | nil => rfl
  | cons h heights ih =>
    cases results with
    | nil =>
      rw [resultMessages, resultTraced, wantedMessages_append, ih, heightMessages_eq_traced]
    | cons r results =>
      rw [resultMessages, resultTraced, wantedMessages_append, ih, heightMessages_eq_traced]

/-- **The messages of a restricted bin** are those of the full bin that are wanted. -/
theorem messages_eq_traced (wanted : Option Selection) (b : Bin) (fetched : Fetched) :
    b.messages wanted fetched = wantedMessages wanted (b.traced fetched) := by
  cases fetched with
  | error e => rfl
  | ok results => exact resultMessages_eq_traced wanted b.heights results

theorem flatMap_messages_eq_traced (wanted : Option Selection) (node : Bin → Fetched)
    (bins : List Bin) : (bins.flatMap fun b => b.messages wanted (node b)) =
      wantedMessages wanted (bins.flatMap fun b => b.traced (node b)) := by
  induction bins with
  | nil => rfl
  | cons b bins ih =>
    rw [List.flatMap_cons, List.flatMap_cons, wantedMessages_append, ih, messages_eq_traced]

/-! ## Kinds of messages -/

/-- Whether an error is about a storage entry, and not about a bin or a height. -/
def BackfillError.isOfEntry : BackfillError → Bool
  | .normalize .. => true
  | .invalidRange .. | .zeroBatchSize | .fetch .. | .decode .. => false

/-- The errors about bins and heights: what could not be fetched or decoded. -/
def blockErrors (ms : List BackfillMessage) : List BackfillError :=
  (errorsOf ms).filter fun e => !e.isOfEntry

/-- The errors about storage entries. -/
def entryErrors (ms : List BackfillMessage) : List BackfillError :=
  (errorsOf ms).filter BackfillError.isOfEntry

/-- The entry that a message is about shows in the message: a diff is that of its entry, the error of an
entry is one of the errors of entries, and all other errors are about no entry. -/
def Traced.Tells (m : Traced) : Prop :=
  match m.message, m.about? with
  | .ok x, some e => ∀ wanted, keepsDiff wanted x = keepsEntry wanted e.1 e.2
  | .ok _, none => False
  | .error e, about? => e.isOfEntry = about?.isSome

theorem tells_traced (height : UInt64) (d : StateDiff) : ∀ m ∈ d.traced height, m.Tells := by
  intro m hm
  obtain ⟨e, -, rfl⟩ := List.mem_map.1 hm
  cases hx : d.diffOf e.1 e.2 with
  | error source =>
    rw [Traced.Tells]
    simp only [Except.mapError]
    rfl
  | ok x =>
    rw [Traced.Tells]
    simp only [Except.mapError]
    exact fun wanted => keepsDiff_of_diffOf hx

theorem tells_heightTraced (height : UInt64) (result : Except StorageError Payload) :
    ∀ m ∈ heightTraced height result, m.Tells := by
  intro m hm
  cases result with
  | error e =>
    rw [heightTraced, List.mem_singleton] at hm
    subst hm
    rfl
  | ok payload =>
    rw [heightTraced] at hm
    cases hd : payload.decode with
    | error e =>
      rw [hd, List.mem_singleton] at hm
      subst hm
      rfl
    | ok d =>
      rw [hd] at hm
      exact tells_traced height d m hm

theorem tells_resultTraced (heights : List UInt64) (results : List (Except StorageError Payload)) :
    ∀ m ∈ resultTraced heights results, m.Tells := by
  induction heights generalizing results with
  | nil => exact fun m hm => absurd hm List.not_mem_nil
  | cons h heights ih =>
    intro m hm
    cases results with
    | nil =>
      rcases List.mem_append.1 hm with hm | hm
      · exact tells_heightTraced h _ m hm
      · exact ih [] m hm
    | cons r results =>
      rcases List.mem_append.1 hm with hm | hm
      · exact tells_heightTraced h r m hm
      · exact ih results m hm

theorem Bin.tells_traced (b : Bin) (fetched : Fetched) : ∀ m ∈ b.traced fetched, m.Tells := by
  intro m hm
  cases fetched with
  | error e =>
    rw [Bin.traced, List.mem_singleton] at hm
    subst hm
    rfl
  | ok results => exact tells_resultTraced b.heights results m hm

/-- The diffs that are wanted are those of the entries that are wanted. -/
theorem diffsOf_wantedMessages {ms : List Traced} (h : ∀ m ∈ ms, m.Tells) (w : Selection) :
    diffsOf (wantedMessages (some w) ms) =
      (diffsOf (ms.map Traced.message)).filter fun x => w.wantsSlot x.account x.key := by
  rw [diffsOf, diffsOf, wantedMessages, List.filterMap_map, List.filterMap_map,
    List.filterMap_filter, List.filter_filterMap]
  refine List.filterMap_congr fun m hm => ?_
  have htells := h m hm
  obtain ⟨about?, message⟩ := m
  cases message with
  | error e => exact ite_self _
  | ok x =>
    cases about? with
    | none => contradiction
    | some e =>
      have hkeeps : w.wantsSlot x.account x.key = Traced.isWanted (some w) ⟨some e, .ok x⟩ :=
        htells (some w)
      rw [← hkeeps]
      rfl

/-- The errors about bins and heights are wanted with every selection. -/
theorem blockErrors_wantedMessages {ms : List Traced} (h : ∀ m ∈ ms, m.Tells)
    (wanted : Option Selection) :
    blockErrors (wantedMessages wanted ms) = blockErrors (ms.map Traced.message) := by
  rw [blockErrors, blockErrors, errorsOf, errorsOf, wantedMessages, List.filterMap_map,
    List.filterMap_map, List.filterMap_filter, List.filter_filterMap, List.filter_filterMap]
  refine List.filterMap_congr fun m hm => ?_
  have htells := h m hm
  obtain ⟨about?, message⟩ := m
  cases message with
  | ok x => exact congrArg (Option.filter _) (ite_self _)
  | error e =>
    have hentry : e.isOfEntry = about?.isSome := htells
    cases about? with
    | none => rfl
    | some entry =>
      -- The error of an entry is no error of a bin or a height, wanted or not.
      have hnone : Option.filter (fun e => !e.isOfEntry) (some e) = none := by
        rw [Option.filter_some, hentry]
        rfl
      split
      · rfl
      · exact hnone.symm

/-! ## Runs -/

/-- What the messages of a restricted backfill are to those of the full one, of which `all` are the
messages with their entries: without the diffs that are not selected and the errors of the entries that
are not, and with all errors of bins and heights. -/
structure Restricted (w : Selection) (all : List Traced) (restricted full : List BackfillMessage) :
    Prop where
  messages : full.Perm (all.map Traced.message)
  diffs : (diffsOf restricted).Perm ((diffsOf full).filter fun x => w.wantsSlot x.account x.key)
  blocks : (blockErrors restricted).Perm (blockErrors full)
  entries : (entryErrors restricted).Perm
    (entryErrors ((all.filter fun m => m.isWanted (some w)).map Traced.message))

theorem restricted_of_perm {w : Selection} {node : Bin → Fetched} {bins : List Bin}
    {restricted full : List BackfillMessage}
    (hrestricted : restricted.Perm (bins.flatMap fun b => b.messages (some w) (node b)))
    (hfull : full.Perm (bins.flatMap fun b => b.messages none (node b))) :
    Restricted w (bins.flatMap fun b => b.traced (node b)) restricted full := by
  rw [flatMap_messages_eq_traced] at hrestricted hfull
  rw [wantedMessages_none] at hfull
  have htells : ∀ m ∈ bins.flatMap fun b => b.traced (node b), m.Tells := by
    intro m hm
    obtain ⟨b, -, hm⟩ := List.mem_flatMap.1 hm
    exact b.tells_traced (node b) m hm
  have herrors := hrestricted.filterMap errorOf?
  constructor
  case messages => exact hfull
  case diffs =>
    have hdiffs := hrestricted.filterMap Except.toOption
    rw [← diffsOf, ← diffsOf, diffsOf_wantedMessages htells] at hdiffs
    exact hdiffs.trans ((hfull.filterMap _).filter _).symm
  case blocks =>
    have hblocks := herrors.filter fun e => !e.isOfEntry
    rw [← errorsOf, ← errorsOf, ← blockErrors, ← blockErrors, blockErrors_wantedMessages htells]
      at hblocks
    exact hblocks.trans ((hfull.filterMap _).filter _).symm
  case entries => exact herrors.filter _

/-- The entries that a selection keeps are those whose slot it wants: passing over an account hides none
of them. -/
theorem mem_keptEntries_iff {w : Selection} {d : StateDiff} {e : AccountDiff × StorageEntry} :
    e ∈ d.keptEntries (some w) ↔
      e ∈ d.entries ∧ w.wantsSlot (Word.ofBytes e.1.key) (Word.ofBytes e.2.key) = true := by
  rw [keptEntries_eq_filter, List.mem_filter]
  exact Iff.rfl

/-- The messages of an undisturbed run that is over are those of its bins whose heights can be listed. -/
theorem Schedule.perm_of_run {wanted : Option Selection} {node : Bin → Fetched} {bins : List Bin}
    {maxInFlight : Nat} {events : List ScheduleEvent} {s : Schedule}
    (he : ∀ e ∈ events, e.isCalm = true)
    (h : (initial bins maxInFlight).run wanted node events = some s) (hover : s.isOver = true) :
    s.sent.Perm ((bins.filter Bin.hasRoom).flatMap fun b => b.messages wanted (node b)) := by
  rw [← Bin.flatMap_yield]
  exact (((Calm.initial bins maxInFlight).run he h).1.of_isOver hover).1

/-- **A restricted backfill is the full one restricted.** Whatever the bins are and the node answers, an
undisturbed restricted run and an undisturbed full one can be brought to their ends, with any number of
workers at a time and the events in any order. When they are over, the restricted one has handed over
the diffs of the full one that are selected, the errors of all bins and heights, and the errors of the
entries that are selected. So it is with the messages that are computed bin by bin. A bin whose heights
cannot be listed has no messages in either. An account that is not selected hides no slot that is. -/
theorem restricted_of_runs (w : Selection) (node : Bin → Fetched) (bins : List Bin)
    (maxInFlight maxInFlight' : Nat) :
    (∀ events s events' t, (∀ e ∈ events, e.isCalm = true) → (∀ e ∈ events', e.isCalm = true) →
      (Schedule.initial bins maxInFlight).run (some w) node events = some s →
      (Schedule.initial bins maxInFlight').run none node events' = some t →
        (∃ more u, (∀ e ∈ more, e.isCalm = true) ∧ s.run (some w) node more = some u ∧
          u.isOver = true) ∧
        (∃ more u, (∀ e ∈ more, e.isCalm = true) ∧ t.run none node more = some u ∧
          u.isOver = true) ∧
        (s.isOver = true → t.isOver = true →
          Restricted w ((bins.filter Bin.hasRoom).flatMap fun b => b.traced (node b)) s.sent t.sent)) ∧
      Restricted w ((bins.filter Bin.hasRoom).flatMap fun b => b.traced (node b))
        (runBackfill (some w) (fun _ => true) (fun _ b => some (node b)) false bins).messages
        (runBackfill none (fun _ => true) (fun _ b => some (node b)) false bins).messages ∧
      (∀ (d : StateDiff) (e : AccountDiff × StorageEntry), e ∈ d.keptEntries (some w) ↔
        e ∈ d.entries ∧ w.wantsSlot (Word.ofBytes e.1.key) (Word.ofBytes e.2.key) = true) ∧
      ∀ account key, w.wantsSlot account key = true → w.wantsAccount account = true := by
  refine ⟨?_, ?_, fun _ _ => mem_keptEntries_iff, fun _ _ => wantsAccount_of_wantsSlot⟩
  · intro events s events' t he he' hrun hrun'
    have hs := ((Schedule.Calm.initial bins maxInFlight).run he hrun).1
    have ht := ((Schedule.Calm.initial bins maxInFlight').run he' hrun').1
    refine ⟨hs.exists_run, ht.exists_run, fun hover hover' => ?_⟩
    exact restricted_of_perm (Schedule.perm_of_run he hrun hover) (Schedule.perm_of_run he' hrun' hover')
  · refine restricted_of_perm ?_ ?_
    · simp [runBackfill, workOff_undisturbed, Bin.flatMap_yield]
    · simp [runBackfill, workOff_undisturbed, Bin.flatMap_yield]

/-- A node with a state diff of which one value cannot be read, and a height that it does not know. -/
def restrictedNode (b : Bin) : Fetched :=
  if b = ⟨1, 1⟩ then .ok [.ok ⟨[], Payload.sampleDiff.encode⟩] else .ok []

/-- The first account of the sample with the key of the value that cannot be read. -/
def sampleSelection : Selection :=
  Selection.empty.addKeys (Word.ofBytes (List.replicate 56 1)) [Word.ofNat 0x80]

/-- The two heights of the sample, each a bin of its own. -/
def sampleBins : List Bin := [⟨1, 1⟩, ⟨2, 2⟩]

/-- A restricted run with both bins in flight. -/
def restrictedEvents : List ScheduleEvent :=
  [.start, .start, .act 1 .fetch, .act 0 .fetch, .act 1 .send, .act 0 .send, .act 0 .finish,
    .act 1 .finish, .join 1, .join 0]

/-- A full run of one bin after the other. -/
def fullEvents : List ScheduleEvent :=
  [.start, .act 0 .fetch, .act 0 .send, .act 0 .send, .act 0 .finish, .join 0, .start, .act 0 .fetch,
    .act 0 .send, .act 0 .finish, .join 0]

theorem restricted_of_runs_sample :
    ∃ s t, (Schedule.initial sampleBins 2).run (some sampleSelection) restrictedNode
        restrictedEvents = some s ∧
      (Schedule.initial sampleBins 1).run none restrictedNode fullEvents = some t ∧
      s.isOver = true ∧ t.isOver = true ∧ s.sent.length = 2 ∧ t.sent.length = 3 ∧
      Restricted sampleSelection
        ((sampleBins.filter Bin.hasRoom).flatMap fun b => b.traced (restrictedNode b)) s.sent t.sent := by
  have hcalm : ∀ e ∈ restrictedEvents, e.isCalm = true := by decide +kernel
  have hcalm' : ∀ e ∈ fullEvents, e.isCalm = true := by decide +kernel
  have hend : ((Schedule.initial sampleBins 2).run (some sampleSelection) restrictedNode
      restrictedEvents).map (fun s => (s.isOver, s.sent.length)) = some (true, 2) := by
    decide +kernel
  have hend' : ((Schedule.initial sampleBins 1).run none restrictedNode fullEvents).map
      (fun s => (s.isOver, s.sent.length)) = some (true, 3) := by decide +kernel
  obtain ⟨s, hrun, hs⟩ := Option.map_eq_some_iff.1 hend
  obtain ⟨t, hrun', ht⟩ := Option.map_eq_some_iff.1 hend'
  obtain ⟨hover, hlength⟩ := Prod.mk.inj hs
  obtain ⟨hover', hlength'⟩ := Prod.mk.inj ht
  obtain ⟨hruns, -⟩ := restricted_of_runs sampleSelection restrictedNode sampleBins 2 1
  exact ⟨s, t, hrun, hrun', hover, hover', hlength, hlength',
    (hruns restrictedEvents s fullEvents t hcalm hcalm' hrun hrun').2.2 hover hover'⟩

end SlotIndex
