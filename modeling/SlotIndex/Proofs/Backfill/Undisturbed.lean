import SlotIndex.CoreNat
import SlotIndex.Proofs.Backfill.Events

/-!
# Undisturbed runs

In an undisturbed run nobody requests cancellation, both receivers stay and no worker breaks down, but for
those that cannot list the heights of their bins. Each event then brings the run one step nearer to its
end, and the messages that have been handed over make up all messages of all bins together with those that
are still to come. A bin whose heights cannot be listed has none.

* `ScheduleEvent.isCalm`: the events of an undisturbed run.
* `Bin.yield`, `Worker.remaining`, `Schedule.remaining`: the messages that are still to be handed over.
* `Bin.work`, `Worker.work`, `Schedule.work`: the number of events that are still to come.
* `Worker.step_calm`, `Worker.exists_step`: what a worker does, and that it can act until it has ended.
* `Schedule.Calm`: the invariant; `Calm.initial`, `Calm.step`, `Calm.run`.
* `Calm.progress`, **`Calm.exists_run`**: an undisturbed run can be brought to its end.
* **`Calm.of_isOver`**: what it has come to then.
-/

namespace SlotIndex

open scoped CoreNat

/-- The events that are no disturbance. -/
def ScheduleEvent.isCalm : ScheduleEvent → Bool
  | .requestCancel | .closeDiffs | .closeErrors | .act _ .breakDown => false
  | .start | .act .. | .join _ | .noticeCancel => true

variable (wanted : Option Selection) (node : Bin → Fetched)

namespace Bin

/-- The messages that a bin is to hand over. -/
def yield (b : Bin) : List BackfillMessage :=
  if b.hasRoom then b.messages wanted (node b) else []

/-- How often the worker of a bin acts, and that it is joined. -/
def work (b : Bin) : Nat :=
  if b.hasRoom then (b.messages wanted (node b)).length + 3 else 2

theorem flatMap_yield (bins : List Bin) : bins.flatMap (yield wanted node) =
    (bins.filter hasRoom).flatMap fun b => b.messages wanted (node b) := by
  induction bins with
  | nil => rfl
  | cons b bins ih =>
    rw [List.flatMap_cons, ih, yield, List.filter_cons]
    split <;> rfl

end Bin

namespace Worker

/-- The messages that a worker is still to hand over. -/
def remaining (w : Worker) : List BackfillMessage :=
  match w.progress with
  | .fetching => w.bin.yield wanted node
  | .sending rest => rest
  | .ended _ => []

/-- How often a worker still acts, and that it is joined. -/
def work (w : Worker) : Nat :=
  match w.progress with
  | .fetching => w.bin.work wanted node
  | .sending rest => rest.length + 2
  | .ended _ => 1

/-- A worker that has got messages has listed the heights of its bin, and one that has ended has run to its
end exactly if it could. -/
def IsCalm (w : Worker) : Prop :=
  match w.progress with
  | .fetching => True
  | .sending _ => w.bin.hasRoom = true
  | .ended completed => completed = w.bin.hasRoom

variable {wanted node}

/-- An action of an undisturbed worker. -/
theorem step_calm {w : Worker} (hw : w.IsCalm) {action : WorkerAction} {progress : Progress}
    {sent : List BackfillMessage} (hcalm : action ≠ .breakDown)
    (h : w.step wanted node (fun _ => true) false action = some (progress, sent)) :
    w.remaining wanted node = sent ++ remaining wanted node { w with progress } ∧
      w.work wanted node = work wanted node { w with progress } + 1 ∧ IsCalm { w with progress } := by
  obtain ⟨bin, before⟩ := w
  cases action with
  | fetch =>
    cases before with
    | sending | ended => cases h
    | fetching =>
      cases h
      cases hroom : bin.hasRoom <;>
        simp [remaining, work, IsCalm, Bin.yield, Bin.work, Bin.afterFetch, hroom]
  | send =>
    match before with
    | .sending (m :: rest) => cases h; exact ⟨rfl, rfl, hw⟩
    | .sending [] | .fetching | .ended _ => cases h
  | finish =>
    match before with
    | .sending [] => cases h; exact ⟨rfl, rfl, hw.symm⟩
    | .sending (_ :: _) | .fetching | .ended _ => cases h
  | stop => cases h
  | breakDown => exact absurd rfl hcalm

/-- A worker that has not ended can act, and at once if cancellation has been requested. -/
theorem exists_step (wanted : Option Selection) (node : Bin → Fetched)
    (accepts : BackfillMessage → Bool) (cancelRequested : Bool) {w : Worker} (h : w.hasEnded = false) :
    ∃ action result, action ≠ .breakDown ∧ (cancelRequested = true → action = .stop) ∧
      w.step wanted node accepts cancelRequested action = some result := by
  cases cancelRequested with
  | true =>
    refine ⟨.stop, (.ended false, []), by decide, fun _ => rfl, ?_⟩
    rw [step, h]
    rfl
  | false =>
    obtain ⟨bin, progress⟩ := w
    cases progress with
    | ended completed => contradiction
    | fetching => exact ⟨.fetch, _, by decide, fun hq => absurd hq Bool.false_ne_true, rfl⟩
    | sending rest =>
      cases rest with
      | nil => exact ⟨.finish, _, by decide, fun hq => absurd hq Bool.false_ne_true, rfl⟩
      | cons m rest =>
        cases hm : accepts m with
        | true =>
          refine ⟨.send, (.sending rest, [m]), by decide, fun hq => absurd hq Bool.false_ne_true, ?_⟩
          simp only [step, hm, if_true]
        | false =>
          refine ⟨.send, (.ended false, []), by decide, fun hq => absurd hq Bool.false_ne_true, ?_⟩
          simp only [step, hm, Bool.false_eq_true, if_false]

end Worker

namespace Schedule

/-- The messages that are still to be handed over. -/
def remaining (s : Schedule) : List BackfillMessage :=
  s.workers.flatMap (Worker.remaining wanted node) ++ s.pending.flatMap (Bin.yield wanted node)

/-- How many events are still to come if nothing disturbs them. -/
def work (s : Schedule) : Nat :=
  (s.workers.map (Worker.work wanted node)).sum +
    (s.pending.map fun b => b.work wanted node + 1).sum

/-- What holds in an undisturbed run over bins. -/
structure Calm (bins : List Bin) (s : Schedule) : Prop where
  total : s.total = bins.length
  limit : 0 < s.limit
  notRequested : s.cancelRequested = false
  notCancelled : s.cancelled = false
  diffsOpen : s.diffsOpen = true
  errorsOpen : s.errorsOpen = true
  workers : ∀ w ∈ s.workers, w.IsCalm
  counted : s.completed + s.workers.countP (fun w => w.bin.hasRoom) + s.pending.countP Bin.hasRoom =
    bins.countP Bin.hasRoom
  delivered : (s.sent ++ s.remaining wanted node).Perm (bins.flatMap (Bin.yield wanted node))

theorem limit_initial_pos (bins : List Bin) (maxInFlight : Nat) :
    0 < (initial bins maxInFlight).limit :=
  Nat.lt_of_lt_of_le Nat.one_pos (Nat.le_max_left 1 maxInFlight)

namespace Calm

variable {wanted node} {bins : List Bin} {s t : Schedule}

theorem initial (bins : List Bin) (maxInFlight : Nat) :
    Calm wanted node bins (Schedule.initial bins maxInFlight) where
  total := rfl
  limit := limit_initial_pos bins maxInFlight
  notRequested := rfl
  notCancelled := rfl
  diffsOpen := rfl
  errorsOpen := rfl
  workers := fun _ h => by contradiction
  counted := Nat.zero_add _
  delivered := List.Perm.refl _

theorem accepts_eq (c : Calm wanted node bins s) : s.accepts = fun _ => true := by
  funext m
  cases m with
  | ok _ => exact c.diffsOpen
  | error _ => exact c.errorsOpen

theorem start (c : Calm wanted node bins s) (h : s.step wanted node .start = some t) :
    Calm wanted node bins t ∧ t.work wanted node + 1 = s.work wanted node := by
  obtain ⟨bin, rest, hp, -, rfl⟩ := step_start h
  obtain ⟨total, limit, hr, hc, hd, he, workers, counted, delivered⟩ := c
  refine ⟨⟨total, limit, hr, hc, hd, he, ?_, ?_, ?_⟩, ?_⟩
  · exact List.forall_mem_append.2 ⟨workers, List.forall_mem_singleton.2 trivial⟩
  · rw [hp, List.countP_cons] at counted
    simp only [List.countP_append, List.countP_singleton]
    omega
  · rw [remaining, hp, List.flatMap_cons] at delivered
    simpa [remaining, Worker.remaining] using delivered
  · simp only [work, hp, List.map_append, List.sum_append, List.map_cons, List.sum_cons,
      List.map_nil, List.sum_nil, Worker.work]
    omega

theorem act (c : Calm wanted node bins s) {index : Nat} {action : WorkerAction}
    (hcalm : action ≠ .breakDown) (h : s.step wanted node (.act index action) = some t) :
    Calm wanted node bins t ∧ t.work wanted node + 1 = s.work wanted node := by
  obtain ⟨front, w, back, progress, sent, -, hw, hstep, rfl⟩ := step_act h
  rw [c.accepts_eq, c.notRequested] at hstep
  obtain ⟨total, limit, hr, hc, hd, he, workers, counted, delivered⟩ := c
  rw [hw, List.forall_mem_append, List.forall_mem_cons] at workers
  obtain ⟨hfront, hbefore, hback⟩ := workers
  obtain ⟨hrem, hwork, hafter⟩ := Worker.step_calm hbefore hcalm hstep
  refine ⟨⟨total, limit, hr, hc, hd, he, ?_, ?_, ?_⟩, ?_⟩
  · exact List.forall_mem_append.2 ⟨hfront, List.forall_mem_cons.2 ⟨hafter, hback⟩⟩
  · rw [hw] at counted
    simpa [List.countP_cons] using counted
  · -- the messages of the worker move to the front, over those of the workers before it
    refine List.Perm.trans ?_ delivered
    simp only [remaining, hw, List.flatMap_append, List.flatMap_cons, hrem, List.append_assoc]
    exact (List.perm_append_comm_assoc _ _ _).append_left _
  · simp only [work, hw, List.map_append, List.sum_append, List.map_cons, List.sum_cons, hwork]
    omega

theorem join (c : Calm wanted node bins s) {index : Nat}
    (h : s.step wanted node (.join index) = some t) :
    Calm wanted node bins t ∧ t.work wanted node + 1 = s.work wanted node := by
  obtain ⟨front, bin, completed, back, -, hw, rfl⟩ := step_join h
  obtain ⟨total, limit, hr, hc, hd, he, workers, counted, delivered⟩ := c
  rw [hw, List.forall_mem_append, List.forall_mem_cons] at workers
  obtain ⟨hfront, hended, hback⟩ := workers
  obtain rfl : completed = bin.hasRoom := hended
  refine ⟨⟨total, limit, hr, hc, hd, he, List.forall_mem_append.2 ⟨hfront, hback⟩, ?_, ?_⟩, ?_⟩
  · rw [hw, List.countP_append, List.countP_cons] at counted
    rw [List.countP_append]
    cases hroom : bin.hasRoom with
    | true =>
      simp only [hroom, if_true] at counted ⊢
      omega
    | false =>
      simp only [hroom, Bool.false_eq_true, if_false] at counted ⊢
      omega
  · simpa [remaining, hw, Worker.remaining] using delivered
  · simp only [work, hw, List.map_append, List.sum_append, List.map_cons, List.sum_cons,
      Worker.work]
    omega

/-- **An event of an undisturbed run** keeps the invariant and leaves one event less to come. -/
theorem step (c : Calm wanted node bins s) {e : ScheduleEvent} (he : e.isCalm = true)
    (h : s.step wanted node e = some t) :
    Calm wanted node bins t ∧ t.work wanted node + 1 = s.work wanted node := by
  cases e with
  | start => exact c.start h
  | act index action =>
    refine c.act (fun ha => ?_) h
    subst ha
    contradiction
  | join index => exact c.join h
  | noticeCancel =>
    simp only [Schedule.step, c.notRequested] at h
    contradiction
  | requestCancel | closeDiffs | closeErrors => contradiction

/-- **An undisturbed run** keeps the invariant and takes as many events as there is less to come. -/
theorem run (c : Calm wanted node bins s) {events : List ScheduleEvent}
    (he : ∀ e ∈ events, e.isCalm = true) (h : s.run wanted node events = some t) :
    Calm wanted node bins t ∧ events.length + t.work wanted node = s.work wanted node := by
  induction events generalizing s with
  | nil =>
    cases h
    exact ⟨c, Nat.zero_add _⟩
  | cons e events ih =>
    obtain ⟨u, hstep, hrun⟩ := Option.bind_eq_some_iff.1 h
    obtain ⟨cu, hu⟩ := c.step (he e List.mem_cons_self) hstep
    obtain ⟨ct, ht⟩ := ih cu (fun e h => he e (List.mem_cons_of_mem _ h)) hrun
    exact ⟨ct, by rw [List.length_cons]; omega⟩

/-- As long as an undisturbed run is not over it can go on. -/
theorem progress (c : Calm wanted node bins s) (h : s.isOver = false) :
    ∃ e t, e.isCalm = true ∧ s.step wanted node e = some t := by
  cases hw : s.workers with
  | nil =>
    cases hp : s.pending with
    | nil => simp [isOver, hw, hp] at h
    | cons bin rest =>
      have hlt : s.running < s.limit := by
        rw [running, hw]
        exact c.limit
      exact ⟨.start, _, rfl, step_start_eq hp hlt⟩
  | cons w workers =>
    have hget : s.workers[0]? = some w := by rw [hw]; rfl
    cases hended : w.hasEnded with
    | false =>
      obtain ⟨action, result, hcalm, -, hstep⟩ :=
        Worker.exists_step wanted node s.accepts s.cancelRequested hended
      refine ⟨.act 0 action, _, ?_, step_act_eq hget hstep⟩
      cases action <;> trivial
    | true =>
      obtain ⟨bin, progress⟩ := w
      match progress with
      | .ended completed => exact ⟨.join 0, _, rfl, step_join_eq hget⟩
      | .fetching | .sending _ => contradiction

/-- **An undisturbed run can be brought to its end.** -/
theorem exists_run (c : Calm wanted node bins s) :
    ∃ events t, (∀ e ∈ events, e.isCalm = true) ∧ s.run wanted node events = some t ∧
      t.isOver = true := by
  obtain ⟨n, hn⟩ : ∃ n, s.work wanted node = n := ⟨_, rfl⟩
  induction n generalizing s with
  | zero =>
    cases hover : s.isOver with
    | true => exact ⟨[], s, by simp, rfl, hover⟩
    | false =>
      obtain ⟨e, t, he, hstep⟩ := c.progress hover
      have := (c.step he hstep).2
      omega
  | succ n ih =>
    cases hover : s.isOver with
    | true => exact ⟨[], s, by simp, rfl, hover⟩
    | false =>
      obtain ⟨e, t, he, hstep⟩ := c.progress hover
      obtain ⟨ct, ht⟩ := c.step he hstep
      obtain ⟨events, u, hcalm, hrun, hu⟩ := ih ct (by omega)
      refine ⟨e :: events, u, fun e' h => ?_, ?_, hu⟩
      · rcases List.mem_cons.1 h with rfl | h
        · exact he
        · exact hcalm e' h
      · rw [run_cons, hstep]
        exact hrun

/-- **What an undisturbed run has come to**: all messages of all bins, and a summary that counts the bins
whose heights could be listed. -/
theorem of_isOver (c : Calm wanted node bins s) (h : s.isOver = true) :
    s.sent.Perm (bins.flatMap (Bin.yield wanted node)) ∧
      s.summary? = some ⟨bins.length, bins.countP Bin.hasRoom, false⟩ := by
  simp only [isOver, Bool.and_eq_true, List.isEmpty_iff] at h
  obtain ⟨hp, hw⟩ := h
  have hcounted := c.counted
  have hdelivered := c.delivered
  rw [hw, hp] at hcounted
  refine ⟨by simpa [remaining, hw, hp] using hdelivered, ?_⟩
  have hcompleted : s.completed = bins.countP Bin.hasRoom := by simpa using hcounted
  simp [summary?, isOver, hp, hw, c.total, c.notCancelled, hcompleted]

end Calm

end Schedule

end SlotIndex
