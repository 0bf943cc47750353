import SlotIndex.Proofs.Poller.Tracking

/-!
# The cursor of the poller

Whatever happens around a poller, its cursor stands on the largest id that has been sent since it was put
back, and it is put back exactly after a poll that has sent nothing and found the channel empty.

* `Polling.Faithful`: what the history says of queries, rows, resets and failures; `Tracked.faithful`.
* `Polling.exists_move`, `Polling.exists_run_settle`: what the poller does by itself.
* **`faithful_of_run`**.
-/

namespace SlotIndex

open Poller (idsOf)
open PollHistory

/-! ## What the history says -/

/-- What the history of a poller says. An id that is sent to a receiver that has gone is not among those
that have been sent, but the poll counts it. -/
structure Polling.Faithful (s : Polling) : Prop where
  logged : s.history.filterMap PollNote.event? = s.poller.log
  /-- What has been sent arrives, in order. -/
  delivered : s.taken <+: items s.history ∧
    (s.poller.closed = false → s.taken ++ s.poller.channel = items s.history)
  /-- A query asks for what lies above the largest id that has been sent since the cursor was put back. -/
  asked : ∀ later minId earlier, s.history = later ++ .asked minId :: earlier →
    IsCursor (sinceReset earlier) minId
  ascending : ∀ later earlier, s.history = later ++ earlier → (sinceReset earlier).Pairwise (· < ·)
  /-- The cursor is put back directly after a poll that has sent nothing and found the channel empty. -/
  reset_iff : ∀ later failure empty lost earlier,
    s.history = later ++ .finished failure empty lost :: earlier →
      ((∃ rest, later = rest ++ [.reset]) ↔
        failure = none ∧ empty = true ∧ lost = false ∧ inPoll earlier = [])
  /-- It is put back at no other time. -/
  reset_after : ∀ later earlier, s.history = later ++ .reset :: earlier →
    ∃ before, earlier = .finished none true false :: before
  /-- The rows that can be read are sent in order, and all of them unless the receiver has gone. -/
  passed_on : ∀ later failure empty lost earlier,
    s.history = later ++ .finished failure empty lost :: earlier →
      inPoll earlier <+: readable (answer earlier) ∧
        (lost = false → inPoll earlier = readable (answer earlier)) ∧
        (lost = true → s.poller.closed = true)
  /-- After a poll that has failed its error is reported, and nothing else. It is on its way still, or
  the receiver has gone. -/
  failed : ∀ later e empty lost earlier,
    s.history = later ++ .finished (some e) empty lost :: earlier →
      later = [.sent (.error e)] ∨
        later = [] ∧ (s.poller.phase = .reporting e ∨ s.poller.closed = true)
  reported : ∀ later e earlier, s.history = later ++ .sent (.error e) :: earlier →
    later = [] ∧ s.poller.phase = .ended ∧
      ∃ empty lost before, earlier = .finished (some e) empty lost :: before

theorem Tracked.faithful {s : Polling} (h : Tracked s) : s.Faithful := by
  have hkept : ∀ {history : List PollNote}, s.history = history → Kept history := fun heq =>
    heq ▸ h.kept
  constructor
  case logged => exact h.logged
  case delivered => exact ⟨h.taken, h.waiting⟩
  case asked => exact fun later minId earlier heq => (hkept heq).follows.2
  case ascending => exact fun later earlier heq => (hkept heq).of_append.ascending
  case reset_iff =>
    intro later failure empty lost earlier heq
    constructor
    · rintro ⟨rest, rfl⟩
      rw [List.append_assoc, List.singleton_append] at heq
      obtain ⟨hnone, before, hfinished⟩ := (hkept heq).follows
      cases hfinished
      exact ⟨rfl, rfl, rfl, hnone⟩
    · rintro ⟨rfl, rfl, rfl, hnone⟩
      rcases later.eq_nil_or_concat with rfl | ⟨rest, x, rfl⟩
      · -- the poller would not be where it is
        have hstanding := h.standing
        rw [heq, List.nil_append] at hstanding
        rcases hstanding.of_finished with hbetween | ⟨e, hfailure, -⟩ | ⟨-, hlost | hfailure⟩
        · rw [isBetween, hnone] at hbetween
          cases hbetween
        · cases hfailure
        · cases hlost
        · exact absurd rfl hfailure
      · rw [List.concat_eq_append, List.append_assoc, List.singleton_append] at heq
        rw [(hkept heq).eq_reset hnone, List.concat_eq_append]
        exact ⟨rest, rfl⟩
  case reset_after => exact fun later earlier heq => (hkept heq).follows.2
  case passed_on =>
    intro later failure empty lost earlier heq
    obtain ⟨-, hfront, hall⟩ := (hkept heq).follows
    refine ⟨hfront, hall, ?_⟩
    rintro rfl
    have hmem : .finished failure empty true ∈ s.history := by
      rw [heq]
      exact List.mem_append_right _ List.mem_cons_self
    exact h.heard failure empty hmem
  case failed =>
    intro later e empty lost earlier heq
    rcases (hkept heq).after_failure with rfl | rfl
    · have hstanding := h.standing
      rw [heq, List.nil_append] at hstanding
      rcases hstanding.of_finished with hbetween | ⟨e', hfailure, hphase⟩ | ⟨hclosed, -⟩
      · cases hbetween
      · cases hfailure
        exact .inr ⟨rfl, .inl hphase⟩
      · exact .inr ⟨rfl, .inr hclosed⟩
    · exact .inl rfl
  case reported =>
    intro later e earlier heq
    obtain rfl := (hkept heq).eq_nil_of_reported
    have hstanding := h.standing
    rw [heq, List.nil_append] at hstanding
    exact ⟨rfl, hstanding.of_reported, (hkept heq).follows⟩

/-! ## What the poller does by itself -/

namespace Polling

variable {s t : Polling}

theorem step_move_eq {m : PollerMove} {p : Poller} (hrows : Honours s.poller.cursor m.rows)
    (hmove : s.poller.move m = some p) :
    s.step (.move m) =
      some { s with poller := p, history := s.poller.notes p m ++ s.history } := by
  rw [step, if_pos hrows, hmove]
  rfl

theorem honours_nil (minId : DiffId) : Honours minId [] := List.pairwise_singleton _ _

/-- **The poller waits for nothing but a tick and room in the channel.** -/
theorem exists_move (s : Polling) (hended : s.poller.phase ≠ .ended)
    (hwaiting : s.poller.phase = .waiting → s.poller.due = true ∨ s.poller.cancelled = true)
    (hroom : s.poller.closed = true ∨ s.poller.hasRoom = true) :
    ∃ m t, (∀ ending, m ≠ .hold ending) ∧ s.step (.move m) = some t := by
  cases hphase : s.poller.phase with
  | ended => exact absurd hphase hended
  | waiting =>
    cases hcancelled : s.poller.cancelled with
    | true =>
      have hmove : s.poller.move .stop = some { s.poller with phase := .ended } := by
        simp only [Poller.move, hphase, hcancelled, if_true]
      exact ⟨.stop, _, fun _ => PollerMove.noConfusion, step_move_eq (honours_nil _) hmove⟩
    | false =>
      have hdue : s.poller.due = true := (hwaiting hphase).resolve_right (by rw [hcancelled]; decide)
      have hmove : s.poller.move (.poll []) = some (s.poller.poll ⟨fun _ => [], none⟩) := by
        simp only [Poller.move, hphase, hcancelled, hdue]
        rfl
      exact ⟨.poll [], _, fun _ => PollerMove.noConfusion, step_move_eq (honours_nil _) hmove⟩
  | reporting e =>
    have hmove : s.poller.move .report = some (s.poller.report e) := by
      simp only [Poller.move, hphase]
      exact if_pos (Bool.or_eq_true_iff.2 hroom)
    exact ⟨.report, _, fun _ => PollerMove.noConfusion, step_move_eq (honours_nil _) hmove⟩
  | forwarding rows n lost ending =>
    cases rows with
    | nil =>
      have hmove : s.poller.move (.finish none) =
          some (s.poller.finishPoll n lost (ending.getD none)) := by
        simp only [Poller.move, hphase]
      exact ⟨.finish none, _, fun _ => PollerMove.noConfusion, step_move_eq (honours_nil _) hmove⟩
    | cons row rows =>
      obtain ⟨p, hpass⟩ : ∃ p, s.poller.passRow n lost ending row rows = some p := by
        cases row with
        | error e => exact ⟨_, rfl⟩
        | ok d =>
          rw [Poller.passRow]
          split
          next => exact ⟨_, rfl⟩
          next =>
            split
            next => exact ⟨_, rfl⟩
            next hclosed => exact ⟨_, if_pos (hroom.resolve_left hclosed)⟩
      have hmove : s.poller.move .pass = some p := by simp only [Poller.move, hphase, hpass]
      exact ⟨.pass, _, fun _ => PollerMove.noConfusion, step_move_eq (honours_nil _) hmove⟩

theorem run_append (s : Polling) (events more : List PollingEvent) :
    s.run (events ++ more) = (s.run events).bind fun t => t.run more :=
  List.foldlM_append

/-- **The rounds of the poller are made of events.** -/
theorem exists_run_settle (s : Polling) {table : DiffSource}
    (htable : ∀ minId, Honours minId (table.rows minId)) :
    ∃ moves : List PollerMove, ∃ t, s.run (moves.map .move) = some t ∧
      t.poller = s.poller.settle table := by
  have hgoes := Poller.goes_settle table s.poller
  generalize s.poller.settle table = p at hgoes
  induction hgoes with
  | refl => exact ⟨[], s, rfl, rfl⟩
  | @tail _ p _ hmove ih =>
    obtain ⟨moves, t, hrun, rfl⟩ := ih
    obtain ⟨m, hm, hrows⟩ := hmove
    have hhonours : Honours t.poller.cursor m.rows := by
      cases m with
      | poll rows =>
        rw [hrows rows rfl]
        exact htable t.poller.cursor
      | stop | pass | hold | finish | report => exact honours_nil _
    refine ⟨moves ++ [m],
      { t with poller := p, history := t.poller.notes p m ++ t.history }, ?_, rfl⟩
    rw [List.map_append, run_append, hrun, Option.bind_some, List.map_singleton, run,
      List.foldlM_cons, step_move_eq hhonours hm]
    rfl

end Polling

theorem honours_ofRows {rows : List StoredDiff} (h : (rows.map StoredDiff.id).Nodup)
    (minId : DiffId) : Honours minId ((DiffSource.ofRows rows).rows minId) := by
  let relay : Relay :=
    { Relay.start rows 0 with poller := { Poller.initial 0 false with cursor := minId } }
  obtain ⟨hsorted, habove⟩ := relay.answers_ofRows h
  refine List.pairwise_cons.2 ⟨fun id hid => ?_, List.pairwise_map.2 hsorted⟩
  obtain ⟨d, hd, rfl⟩ := List.mem_map.1 hid
  exact (habove d hd).2

/-- **What every run of a poller says**, whatever the table holds and fails with, as long as it honours the
queries, and in whichever way the watcher takes items. The poller never waits for anything but a tick and
room in the channel, and what it does by itself until then is such a run. -/
theorem faithful_of_run (capacity : Nat) (cancelled : Bool) {events : List PollingEvent} {s : Polling}
    (h : (Polling.start capacity cancelled).run events = some s) :
    s.Faithful ∧
      (s.poller.phase ≠ .ended →
        (s.poller.phase = .waiting → s.poller.due = true ∨ s.poller.cancelled = true) →
        s.poller.closed = true ∨ s.poller.hasRoom = true →
          ∃ m t, (∀ ending, m ≠ .hold ending) ∧ s.step (.move m) = some t) ∧
      ∀ table : DiffSource, (∀ minId, Honours minId (table.rows minId)) →
        ∃ moves : List PollerMove, ∃ t, s.run (moves.map .move) = some t ∧
          t.poller = s.poller.settle table :=
  ⟨((Tracked.start capacity cancelled).run h).faithful, s.exists_move,
    fun _ htable => s.exists_run_settle htable⟩

/-- A poller with room for one item, whose second poll puts the cursor back and whose third one fails. -/
def pollingEvents (row : DiffId → StoredDiff) : List PollingEvent :=
  [.move (.poll [.ok (row 1), .error (.io "unreadable"), .ok (row 2)]), .move .pass, .move .pass,
    .move (.hold none), .receive, .move .pass, .move (.finish none), .receive,
    .tick, .move (.poll []), .move (.finish none),
    .tick, .move (.poll [.ok (row 1)]), .move .pass, .move (.finish (some (.io "gone"))), .receive,
    .move .report]

theorem faithful_of_run_reset :
    let row : DiffId → StoredDiff := fun id =>
      ⟨id, Word.ofNat 0, Word.ofNat 0, 100, Word.ofNat 4, Word.ofNat 5⟩
    ∃ s, (Polling.start 1 false).run (pollingEvents row) = some s ∧ s.Faithful ∧
      s.poller.log.reverse = [.polled 0, .forwarded 1, .forwarded 2, .polled 2, .reset, .polled 0,
        .forwarded 1, .reported (.io "gone")] ∧
      sinceReset s.history = [1] ∧ idsOf s.taken = [1, 2, 1] ∧
      ∃ moves : List PollerMove, ∃ t, s.run (moves.map .move) = some t ∧
        t.poller = s.poller.settle (DiffSource.ofRows [row 1, row 2]) := by
  intro row
  have hshown : ((Polling.start 1 false).run (pollingEvents row)).map (fun s =>
      (s.poller.log.reverse, sinceReset s.history, idsOf s.taken)) =
        some ([.polled 0, .forwarded 1, .forwarded 2, .polled 2, .reset, .polled 0, .forwarded 1,
          .reported (.io "gone")], [1], [1, 2, 1]) := by decide +kernel
  obtain ⟨s, hs, hends⟩ := Option.map_eq_some_iff.1 hshown
  obtain ⟨hlog, hends⟩ := Prod.mk.inj hends
  obtain ⟨hsince, htaken⟩ := Prod.mk.inj hends
  obtain ⟨hfaithful, -, hsettle⟩ := faithful_of_run 1 false hs
  have hnodup : ([row 1, row 2].map StoredDiff.id).Nodup := by decide
  exact ⟨s, hs, hfaithful, hlog, hsince, htaken, hsettle _ (honours_ofRows hnodup)⟩

end SlotIndex
