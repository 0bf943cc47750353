import SlotIndex.Proofs.Backfill.Contribution
import SlotIndex.Proofs.Backfill.Partition
import SlotIndex.Proofs.Backfill.Sequence
import SlotIndex.Proofs.Diff.RoundTrip

/-!
# Batches and schedules do not matter

What a backfill of a range comes to depends on the heights of the range and on what the node answers
for them, and on nothing else: not on the number of heights in a bin, not on the number of workers at a
time and not on the order in which they take their steps. Batches and workers only have to leave room for
the lists of bins and of heights, and for the count of workers.

* `Backfilled`: what a backfill over heights comes to.
* `backfilled_of_perm`: from the messages of all bins, in any order.
* `Backfillable`: that there is room; `Backfillable.exists_start`, `backfillable_of_start`.
* **`backfilled_of_run`**: every undisturbed run, and the run that is computed.
* `backfill_without_room`.
-/

namespace SlotIndex

variable (wanted : Option Selection) (results : UInt64 → Except StorageError Payload)

/-- What a backfill over heights comes to: the diffs and the errors that have been handed over are
those of the heights, in some order, and all bins have been worked off to their end. -/
structure Backfilled (heights : List UInt64) (bins : Nat) (sent : List BackfillMessage)
    (summary : Summary) : Prop where
  diffs : (diffsOf sent).Perm (heights.flatMap fun h => heightDiffs wanted (results h))
  errors : (errorsOf sent).Perm (heights.flatMap fun h => heightErrors wanted h (results h))
  complete : summary = ⟨bins, bins, false⟩

variable {wanted results}

theorem backfilled_of_perm {bins : List Bin} {heights : List UInt64} {sent : List BackfillMessage}
    (hbins : bins.flatMap Bin.heights = heights)
    (h : sent.Perm (bins.flatMap fun b => b.messages wanted (answerEach results b))) :
    Backfilled wanted results heights bins.length sent ⟨bins.length, bins.length, false⟩ := by
  rw [flatMap_messages, hbins] at h
  refine ⟨?_, ?_, rfl⟩
  · rw [← diffsOf_flatMap]
    exact h.filterMap _
  · rw [← errorsOf_flatMap]
    exact h.filterMap _

namespace Schedule

theorem Calm.backfilled {bins : List Bin} {heights : List UInt64} {s : Schedule} {summary : Summary}
    (c : Calm wanted (answerEach results) bins s) (hbins : bins.flatMap Bin.heights = heights)
    (hroom : ∀ b ∈ bins, b.hasRoom = true) (h : s.summary? = some summary) :
    Backfilled wanted results heights bins.length s.sent summary := by
  obtain ⟨hsent, hsummary⟩ := c.of_isOver (isOver_of_summary? h)
  rw [Bin.flatMap_yield, List.filter_eq_self.2 hroom] at hsent
  rw [List.countP_eq_length.2 hroom] at hsummary
  rw [hsummary] at h
  cases h
  exact backfilled_of_perm hbins hsent

/-- A bin whose heights cannot be listed is not counted. -/
theorem Calm.completed_lt {bins : List Bin} {node : Bin → Fetched} {s : Schedule} {summary : Summary}
    (c : Calm wanted node bins s) (hroom : ¬ ∀ b ∈ bins, b.hasRoom = true)
    (h : s.summary? = some summary) : summary.completed < bins.length := by
  rw [(c.of_isOver (isOver_of_summary? h)).2] at h
  cases h
  exact Nat.lt_of_le_of_ne List.countP_le_length fun heq => hroom (List.countP_eq_length.1 heq)

end Schedule

/-- There is room for a backfill: for the bins of its range, for the heights of each bin, and for the count
of its workers. -/
structure Backfillable (first last size : UInt64) (maxInFlight : Nat) : Prop where
  bins : RoomForBins first last (usualSize size)
  heights : RoomForHeights first last (usualSize size)
  workers : max 1 maxInFlight ≤ Schedule.maxPermits

variable {first last size : UInt64} {maxInFlight : Nat}

/-- Where there is room a backfill starts, with bins whose heights can be listed. -/
theorem Backfillable.exists_start (h : Backfillable first last size maxInFlight) (hle : first ≤ last) :
    ∃ bins, backfillBins first last size = .ok bins ∧
      Schedule.initial? bins maxInFlight = some (.initial bins maxInFlight) ∧
      ∀ b ∈ bins, b.hasRoom = true := by
  obtain ⟨bins, hok⟩ := (exists_backfillBins_iff hle).2 h.bins
  exact ⟨bins, hok, if_pos h.workers, (forall_hasRoom_iff (tiles_of_backfillBins hok)).2 h.heights⟩

/-- There is room for a backfill that has started with bins whose heights can be listed. -/
theorem backfillable_of_start {bins : List Bin} {start : Schedule}
    (hok : backfillBins first last size = .ok bins)
    (hstart : Schedule.initial? bins maxInFlight = some start) (hroom : ∀ b ∈ bins, b.hasRoom = true) :
    Backfillable first last size maxInFlight where
  bins := (of_splitRange_eq_ok hok).2.2
  heights := (forall_hasRoom_iff (tiles_of_backfillBins hok)).1 hroom
  workers := (Schedule.initial?_eq_some hstart).1

variable (wanted results)

/-- **A backfill depends on its heights alone**, for every batch size and every number of workers at a time
that there is room for. With the events of an undisturbed run in any order, the run is finite, can be
brought to its end, and has come to the diffs and the errors of the heights of the range when its summary is
sent. So has the backfill that is computed bin by bin. Without room, no summary counts all bins. -/
theorem backfilled_of_run {first last : UInt64} (h : first ≤ last) (size : UInt64)
    (maxInFlight : Nat) :
    (Backfillable first last size maxInFlight →
      ∃ bins start, backfillBins first last size = .ok bins ∧
        Schedule.initial? bins maxInFlight = some start ∧
        (∀ events s, (∀ e ∈ events, e.isCalm = true) →
          start.run wanted (answerEach results) events = some s →
            (∀ summary, s.summary? = some summary →
              Backfilled wanted results (Bin.heights ⟨first, last⟩) bins.length s.sent summary) ∧
            events.length ≤ start.work wanted (answerEach results) ∧
            ∃ more t, (∀ e ∈ more, e.isCalm = true) ∧
              s.run wanted (answerEach results) more = some t ∧ t.isOver = true) ∧
        let r := runBackfill wanted (fun _ => true) (fun _ b => some (answerEach results b)) false bins
        Backfilled wanted results (Bin.heights ⟨first, last⟩) bins.length r.messages (r.summary bins)) ∧
    (¬ Backfillable first last size maxInFlight →
      ∀ bins start, backfillBins first last size = .ok bins →
        Schedule.initial? bins maxInFlight = some start →
        ∀ events s, (∀ e ∈ events, e.isCalm = true) →
          start.run wanted (answerEach results) events = some s →
          ∀ summary, s.summary? = some summary → summary.completed < bins.length) := by
  refine ⟨fun hable => ?_, fun hnot bins start hok hstart events s he hrun summary hsummary => ?_⟩
  · obtain ⟨bins, hok, hstart, hroom⟩ := hable.exists_start h
    have hbins := (tiles_of_backfillBins hok).flatMap_heights
    have hinitial : Schedule.Calm wanted (answerEach results) bins
        (Schedule.initial bins maxInFlight) := .initial bins maxInFlight
    refine ⟨bins, _, hok, hstart, fun events s he hrun => ?_, ?_⟩
    · obtain ⟨hs, hwork⟩ := hinitial.run he hrun
      exact ⟨fun summary hsummary => hs.backfilled hbins hroom hsummary, by omega, hs.exists_run⟩
    · obtain ⟨events, t, he, hrun, hsent, hsummary⟩ :=
        runBackfill_is_run wanted (answerEach results) bins maxInFlight
      have hr := (hinitial.run he hrun).1.backfilled hbins hroom hsummary
      rw [hsent] at hr
      exact hr
  · obtain ⟨-, rfl⟩ := Schedule.initial?_eq_some hstart
    have hs := ((Schedule.Calm.initial bins maxInFlight).run he hrun).1
    exact hs.completed_lt (fun hroom => hnot (backfillable_of_start hok hstart hroom)) hsummary

/-- A node with a state diff of which one value cannot be read, a failure and bytes that are no state
diff. -/
def sampleResults : UInt64 → Except StorageError Payload
  | 1 => .ok ⟨[], Payload.sampleDiff.encode⟩
  | 2 => .error (.io "gone")
  | _ => .ok ⟨[], []⟩

/-- Two workers that take turns. -/
def sampleEvents : List ScheduleEvent :=
  [.start, .start, .act 1 .fetch, .act 0 .fetch, .act 0 .send, .act 1 .send, .act 1 .finish,
    .act 0 .send, .join 1, .act 0 .send, .act 0 .finish, .join 0]

theorem backfilled_of_run_in_turns :
    (1 : UInt64) ≤ 3 ∧ Backfillable 1 3 2 2 ∧ ∃ s,
      (Schedule.initial [⟨1, 2⟩, ⟨3, 3⟩] 2).run none (answerEach sampleResults) sampleEvents = some s ∧
      Backfilled none sampleResults (Bin.heights ⟨1, 3⟩) 2 s.sent ⟨2, 2, false⟩ := by
  have hle : (1 : UInt64) ≤ 3 := by decide
  have hbins : backfillBins 1 3 2 = .ok [⟨1, 2⟩, ⟨3, 3⟩] := by rfl
  have hinitial : Schedule.initial? [⟨1, 2⟩, ⟨3, 3⟩] 2 = some (.initial [⟨1, 2⟩, ⟨3, 3⟩] 2) :=
    if_pos (by decide)
  have hable : Backfillable 1 3 2 2 := backfillable_of_start hbins hinitial (by decide)
  have hend : ((Schedule.initial [⟨1, 2⟩, ⟨3, 3⟩] 2).run none (answerEach sampleResults)
      sampleEvents).bind Schedule.summary? = some ⟨2, 2, false⟩ := by decide +kernel
  obtain ⟨bins, start, hok, hstart, hruns, -⟩ := (backfilled_of_run none sampleResults hle 2 2).1 hable
  obtain rfl := Except.ok.inj (hbins.symm.trans hok)
  obtain rfl := Option.some.inj (hinitial.symm.trans hstart)
  obtain ⟨s, hrun, hsummary⟩ := Option.bind_eq_some_iff.1 hend
  exact ⟨hle, hable, s, hrun, (hruns sampleEvents s (by decide) hrun).1 _ hsummary⟩

/-- All heights there are: in bins of one there is no list of the bins, and in bins of as many as there are
numbers the heights of the first bin cannot be listed, so that only the other one is worked off. -/
theorem backfill_without_room :
    (0 : UInt64) ≤ maxHeight ∧ backfillBins 0 maxHeight 1 = .error .breakDown ∧
      ∃ bins events s, backfillBins 0 maxHeight maxHeight = .ok bins ∧
        (∀ e ∈ events, e.isCalm = true) ∧
        (Schedule.initial bins 1).run none (answerEach sampleResults) events = some s ∧
        s.summary? = some ⟨2, 1, false⟩ := by
  have hbins : backfillBins 0 maxHeight maxHeight = .ok [⟨0, maxHeight - 1⟩, ⟨maxHeight, maxHeight⟩] := by
    decide
  obtain ⟨events, s, he, hrun, -, hsummary⟩ := runBackfill_is_run none (answerEach sampleResults)
    [⟨0, maxHeight - 1⟩, ⟨maxHeight, maxHeight⟩] 1
  refine ⟨by decide, by decide, _, events, s, hbins, he, hrun, hsummary.trans ?_⟩
  rw [runBackfill, if_neg Bool.false_ne_true, workOff_undisturbed]
  rfl

end SlotIndex
