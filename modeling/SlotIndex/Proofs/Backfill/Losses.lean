import SlotIndex.Proofs.Backfill.Supervision

/-!
# Bins that are missed

A bin is missed when its worker has ended early and is joined while no cancellation has been noticed: the
summary counts it in no way. Without a loss a worker ends early only because the backfill is cancelled. A
cancellation that is requested when the scheduler is about to ask for it is noticed before the next worker
is joined, so that no bin is missed. One that is requested later in a turn can stop a worker that is joined
in the same turn.

* `Supervised.completed_add_missed`: a summary without a cancellation counts all bins but the missed ones.
* `SupervisionEvent.isLossless`, `Intact`, `Intact.step`, **`Intact.run`**: no bin is missed before a
  cancellation is requested.
* `Supervision.Timely`, `Prompt`, `Prompt.step`, **`Prompt.run`**: no bin is missed at all if each request
  comes when the scheduler is about to ask for it.
-/

namespace SlotIndex

variable {wanted : Option Selection} {node : Bin → Fetched} {s t : Supervision}

/-- **A summary without a cancellation counts all bins but the missed ones.** -/
theorem Supervised.completed_add_missed {bins : List Bin} {maxInFlight : Nat}
    (h : Supervised bins maxInFlight s) {summary : Summary} (hmem : summary ∈ s.reports)
    (hc : summary.cancelled = false) : summary.completed + s.missed.length = bins.length := by
  obtain ⟨hp, hw, -, rfl⟩ := h.of_mem_reports hmem
  have hleft := h.left hc
  have hcounted := h.counted
  rw [hp, hw] at hleft
  rw [hw] at hcounted
  exact (congrArg (· + s.missed.length) hcounted).trans hleft

/-! ## Without losses -/

/-- The events in which nothing is lost: no receiver goes away and no worker breaks down. The backfill may
be cancelled. -/
def SupervisionEvent.isLossless : SupervisionEvent → Bool
  | .of .closeDiffs | .of .closeErrors | .of (.act _ .breakDown) => false
  | .of .start | .of (.act ..) | .of (.join _) | .of .requestCancel | .of .noticeCancel => true
  | .pass | .report => true

/-- What holds as long as nothing is lost. -/
structure Intact (s : Supervision) : Prop where
  diffsOpen : s.schedule.diffsOpen = true
  errorsOpen : s.schedule.errorsOpen = true
  /-- The heights of all bins can be listed. -/
  workers : ∀ w ∈ s.schedule.workers, w.bin.hasRoom = true
  pending : ∀ b ∈ s.schedule.pending, b.hasRoom = true
  /-- A worker ends early only in a backfill that is cancelled. -/
  stopped : s.schedule.cancelRequested = false → ∀ w ∈ s.schedule.workers, w.progress ≠ .ended false
  missed : s.schedule.cancelRequested = false → s.missed = []

namespace Intact

theorem initial {bins : List Bin} (hroom : ∀ b ∈ bins, b.hasRoom = true) (maxInFlight : Nat) :
    Intact (Supervision.initial bins maxInFlight) where
  diffsOpen := rfl
  errorsOpen := rfl
  workers _ hw := absurd hw List.not_mem_nil
  pending := hroom
  stopped _ _ hw := absurd hw List.not_mem_nil
  missed _ := rfl

theorem accepts (h : Intact s) (m : BackfillMessage) : s.schedule.accepts m = true := by
  cases m with
  | ok _ => exact h.diffsOpen
  | error _ => exact h.errorsOpen

/-- Without losses a worker that acts ends early only if cancellation has been requested. -/
theorem requested_of_ended (h : Intact s) {w : Worker} {action : WorkerAction}
    {sent : List BackfillMessage} (hlisted : w.bin.hasRoom = true) (ha : action ≠ .breakDown)
    (hact : w.step wanted node s.schedule.accepts s.schedule.cancelRequested action =
      some (.ended false, sent)) : s.schedule.cancelRequested = true := by
  rcases (Worker.step_effect hact).2.reason with hrequested | ⟨m, hm⟩ | hbreak | hroom
  · exact hrequested
  · exact absurd (hm.symm.trans (h.accepts m)) Bool.false_ne_true
  · exact absurd hbreak ha
  · exact absurd (hroom.symm.trans hlisted) Bool.false_ne_true

theorem start (h : Intact s) (hstep : s.step wanted node (.of .start) = some t) : Intact t := by
  obtain ⟨-, u, hu, rfl⟩ := Supervision.step_of hstep
  obtain ⟨bin, rest, hp, -, rfl⟩ := Schedule.step_start hu
  have hpending := h.pending
  rw [hp, List.forall_mem_cons] at hpending
  refine ⟨h.diffsOpen, h.errorsOpen, ?_, hpending.2, fun hr => ?_, fun hr => ?_⟩
  · exact List.forall_mem_append.2 ⟨h.workers, List.forall_mem_singleton.2 hpending.1⟩
  · exact List.forall_mem_append.2 ⟨h.stopped hr, List.forall_mem_singleton.2 Progress.noConfusion⟩
  · exact (List.append_nil _).trans (h.missed hr)

theorem act (h : Intact s) {index : Nat} {action : WorkerAction} (ha : action ≠ .breakDown)
    (hstep : s.step wanted node (.of (.act index action)) = some t) : Intact t := by
  obtain ⟨-, u, hu, rfl⟩ := Supervision.step_of hstep
  obtain ⟨front, w, back, progress, sent, -, hw, hact, rfl⟩ := Schedule.step_act hu
  have hworkers := h.workers
  have hstopped := h.stopped
  simp only [hw, List.forall_mem_append, List.forall_mem_cons] at hworkers hstopped
  obtain ⟨hfront, hroom, hback⟩ := hworkers
  refine ⟨h.diffsOpen, h.errorsOpen, ?_, h.pending, fun hr => ?_, fun hr => ?_⟩
  · exact List.forall_mem_append.2 ⟨hfront, List.forall_mem_cons.2 ⟨hroom, hback⟩⟩
  · obtain ⟨hfront, -, hback⟩ := hstopped hr
    refine List.forall_mem_append.2 ⟨hfront, List.forall_mem_cons.2 ⟨fun hprogress => ?_, hback⟩⟩
    obtain rfl : progress = .ended false := hprogress
    exact absurd (hr.symm.trans (h.requested_of_ended hroom ha hact)) Bool.false_ne_true
  · exact (List.append_nil _).trans (h.missed hr)

/-- A bin is missed only after a cancellation has been requested. -/
theorem missedBy_join (h : Intact s) {index : Nat} {bin : Bin} {completed : Bool}
    (hget : s.schedule.workers[index]? = some ⟨bin, .ended completed⟩)
    (hr : s.schedule.cancelRequested = false) : s.schedule.missedBy (.join index) = [] := by
  rw [Schedule.missedBy_join hget]
  cases completed with
  | true => rfl
  | false => exact absurd rfl (h.stopped hr _ (List.mem_of_getElem? hget))

theorem join (h : Intact s) {index : Nat} (hstep : s.step wanted node (.of (.join index)) = some t) :
    Intact t := by
  obtain ⟨-, u, hu, rfl⟩ := Supervision.step_of hstep
  obtain ⟨front, bin, completed, back, hget, hw, rfl⟩ := Schedule.step_join hu
  have hworkers := h.workers
  have hstopped := h.stopped
  simp only [hw, List.forall_mem_append, List.forall_mem_cons] at hworkers hstopped
  refine ⟨h.diffsOpen, h.errorsOpen, ?_, h.pending, fun hr => ?_, fun hr => ?_⟩
  · exact List.forall_mem_append.2 ⟨hworkers.1, hworkers.2.2⟩
  · exact List.forall_mem_append.2 ⟨(hstopped hr).1, (hstopped hr).2.2⟩
  · rw [h.missedBy_join hget hr, List.append_nil]
    exact h.missed hr

/-- **An event in which nothing is lost** misses no bin before a cancellation is requested. -/
theorem step (h : Intact s) {e : SupervisionEvent} (he : e.isLossless = true)
    (hstep : s.step wanted node e = some t) : Intact t := by
  cases e with
  | report =>
    obtain ⟨-, -, rfl⟩ := Supervision.step_report hstep
    exact { h with }
  | pass =>
    obtain ⟨-, rfl⟩ := Supervision.step_pass hstep
    exact { h with }
  | of e =>
    cases e with
    | start => exact h.start hstep
    | act index action =>
      refine h.act (fun hbreak => ?_) hstep
      subst hbreak
      contradiction
    | join index => exact h.join hstep
    | noticeCancel =>
      obtain ⟨-, u, hu, rfl⟩ := Supervision.step_of hstep
      obtain ⟨hrequested, -, -, rfl⟩ := Schedule.step_noticeCancel hu
      have hnever : s.schedule.cancelRequested = false → False := fun hr =>
        Bool.false_ne_true (hr.symm.trans hrequested)
      exact { h with
        pending := fun _ hb => absurd hb List.not_mem_nil
        missed := fun hr => (hnever hr).elim }
    | requestCancel =>
      cases hstep
      exact { h with
        stopped := fun hr => absurd hr.symm Bool.false_ne_true
        missed := fun hr => absurd hr.symm Bool.false_ne_true }
    | closeDiffs | closeErrors => contradiction

/-- **A run in which nothing is lost** misses no bin before a cancellation is requested. -/
theorem run (h : Intact s) {events : List SupervisionEvent} (he : ∀ e ∈ events, e.isLossless = true)
    (hrun : s.run wanted node events = some t) : Intact t :=
  Supervision.run_keeps (fun _ _ e hmem hu hstep => hu.step (he e hmem) hstep) h hrun

end Intact

/-! ## Timely requests -/

/-- Each cancellation is requested when the scheduler is about to ask for it. -/
def Supervision.Timely (wanted : Option Selection) (node : Bin → Fetched) (s : Supervision) :
    List SupervisionEvent → Prop
  | [] => True
  | e :: events => (e = .of .requestCancel → s.poll = .cancellation) ∧
      ∀ t, s.step wanted node e = some t → Timely wanted node t events

/-- What holds as long as nothing is lost and cancellations are requested in time. -/
structure Prompt (s : Supervision) : Prop extends Intact s where
  /-- The scheduler notices a cancellation before it does anything else. -/
  atOnce : s.schedule.mustNotice = true → s.poll = .cancellation
  noneMissed : s.missed = []

namespace Prompt

theorem initial {bins : List Bin} (hroom : ∀ b ∈ bins, b.hasRoom = true) (maxInFlight : Nat) :
    Prompt (Supervision.initial bins maxInFlight) :=
  { Intact.initial hroom maxInFlight with
    atOnce := fun _ => rfl
    noneMissed := rfl }

/-- A worker is joined only when there is no cancellation to be noticed, so that its bin is not missed. -/
theorem missedBy_join (h : Prompt s) {index : Nat} (hstep : s.step wanted node (.of (.join index)) = some t) :
    s.schedule.missedBy (.join index) = [] := by
  obtain ⟨ha, u, hu, -⟩ := Supervision.step_of hstep
  obtain ⟨front, bin, completed, back, hget, -, -⟩ := Schedule.step_join hu
  have hpoll : s.poll = .workers := of_decide_eq_true (Bool.and_eq_true_iff.1 ha).2
  have hnotice : s.schedule.mustNotice = false := by
    by_contra hnotice
    rw [h.atOnce (Bool.not_eq_false _ ▸ hnotice)] at hpoll
    contradiction
  cases hc : s.schedule.cancelled with
  | true => rw [Schedule.missedBy_join hget, hc, Bool.or_true, if_pos rfl]
  | false =>
    rw [Schedule.mustNotice, hc, Bool.not_false, Bool.and_true] at hnotice
    exact h.toIntact.missedBy_join hget hnotice

/-- **An event** with which nothing is lost and no request comes late misses no bin. -/
theorem step (h : Prompt s) {e : SupervisionEvent} (he : e.isLossless = true)
    (htimely : e = .of .requestCancel → s.poll = .cancellation)
    (hstep : s.step wanted node e = some t) : Prompt t := by
  have hintact := h.toIntact.step he hstep
  cases e with
  | report =>
    obtain ⟨-, -, rfl⟩ := Supervision.step_report hstep
    exact { h with }
  | pass =>
    obtain ⟨hpass, rfl⟩ := Supervision.step_pass hstep
    refine { hintact with atOnce := fun hnotice => ?_, noneMissed := h.noneMissed }
    -- the scheduler does not pass over a cancellation
    have hpoll : s.poll = .cancellation := h.atOnce hnotice
    simp only [Supervision.canPass, hpoll, Bool.and_eq_true, Bool.not_eq_true', Bool.and_eq_false_iff,
      decide_eq_false_iff_not, not_true_eq_false, false_or] at hpass
    exact absurd (hpass.2.symm.trans hnotice) Bool.false_ne_true
  | of e =>
    cases e with
    | join index =>
      have hmissed := h.missedBy_join hstep
      obtain ⟨-, u, -, rfl⟩ := Supervision.step_of hstep
      refine { hintact with atOnce := fun _ => rfl, noneMissed := ?_ }
      rw [hmissed, List.append_nil]
      exact h.noneMissed
    | start | noticeCancel =>
      obtain ⟨-, u, -, rfl⟩ := Supervision.step_of hstep
      exact { hintact with
        atOnce := fun _ => rfl
        noneMissed := (List.append_nil _).trans h.noneMissed }
    | act index action =>
      obtain ⟨-, u, hu, rfl⟩ := Supervision.step_of hstep
      obtain ⟨front, w, back, progress, sent, -, -, -, rfl⟩ := Schedule.step_act hu
      exact { hintact with
        atOnce := h.atOnce
        noneMissed := (List.append_nil _).trans h.noneMissed }
    | requestCancel =>
      cases hstep
      exact { hintact with
        atOnce := fun _ => htimely rfl
        noneMissed := (List.append_nil _).trans h.noneMissed }
    | closeDiffs | closeErrors => contradiction

/-- **A run** with which nothing is lost and no request comes late misses no bin. -/
theorem run (h : Prompt s) {events : List SupervisionEvent} (he : ∀ e ∈ events, e.isLossless = true)
    (htimely : s.Timely wanted node events) (hrun : s.run wanted node events = some t) : Prompt t := by
  induction events generalizing s with
  | nil =>
    cases hrun
    exact h
  | cons e events ih =>
    obtain ⟨u, hstep, hrest⟩ := Option.bind_eq_some_iff.1 hrun
    exact ih (h.step (he e List.mem_cons_self) htimely.1 hstep)
      (fun e he' => he e (List.mem_cons_of_mem _ he')) (htimely.2 u hstep) hrest

end Prompt

end SlotIndex
