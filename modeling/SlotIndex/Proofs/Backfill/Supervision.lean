import Mathlib.Data.List.Perm.Subperm
import SlotIndex.Backfill.Supervision
import SlotIndex.Proofs.Backfill.Undisturbed

/-!
# What the scheduler keeps

The scheduler, the workers, the cancellation and the receivers take their steps in any order. What holds in
every state is said once, and kept by each step.

* `Supervision.asked_eq_true`, `Supervision.step_of_eq`, `Supervision.step_pass_eq`,
  `Supervision.step_report_eq`: when an event can happen.
* `Supervision.step_of`, `Supervision.step_pass`, `Supervision.step_report`: what has happened in it;
  `Supervision.run_keeps`.
* `Worker.step_effect`: all that an action does to a worker.
* `Supervised`: what holds in every state; `Supervised.step`, **`Supervised.run`**.
* `Supervised.of_mem_reports`, `Supervised.started_run`: the summary, and what a cancellation prevents.
-/

namespace SlotIndex

/-! ## Events -/

namespace Supervision

variable {wanted : Option Selection} {node : Bin → Fetched} {s t : Supervision}

theorem initial?_eq_some {bins : List Bin} {maxInFlight : Nat} (h : initial? bins maxInFlight = some s) :
    max 1 maxInFlight ≤ Schedule.maxPermits ∧ s = initial bins maxInFlight := by
  obtain ⟨schedule, hschedule, rfl⟩ := Option.map_eq_some_iff.1 h
  obtain ⟨hle, rfl⟩ := Schedule.initial?_eq_some hschedule
  exact ⟨hle, rfl⟩

/-- A backfill starts if its workers can be counted. -/
theorem exists_initial?_iff {bins : List Bin} {maxInFlight : Nat} :
    (∃ start, initial? bins maxInFlight = some start) ↔ maxInFlight ≤ Schedule.maxPermits := by
  constructor
  · rintro ⟨start, h⟩
    exact Nat.le_trans (Nat.le_max_right 1 maxInFlight) (initial?_eq_some h).1
  · intro h
    have hle : max 1 maxInFlight ≤ Schedule.maxPermits := Nat.max_le.2 ⟨by decide, h⟩
    exact ⟨initial bins maxInFlight, congrArg (Option.map ofSchedule) (if_pos hle)⟩

/-- Until the scheduler has returned it may do what it asks for. -/
theorem asked_eq_true {poll : Poll} (hr : s.returned = false) (hpoll : s.poll = poll) :
    (!s.returned && decide (s.poll = poll)) = true := by
  rw [hr, decide_eq_true hpoll]
  rfl

theorem step_of_eq {e : ScheduleEvent} {u : Schedule} (ha : s.allows e = true)
    (hu : s.schedule.step wanted node e = some u) : s.step wanted node (.of e) = some
      { s with
        schedule := u
        poll := s.pollAfter e
        started := s.started ++ s.schedule.startedBy e
        finished := s.finished ++ s.schedule.finishedBy e
        missed := s.missed ++ s.schedule.missedBy e } := by
  rw [step, if_pos ha, hu]
  rfl

theorem step_report_eq (hr : s.returned = false) (hpoll : s.poll = .cancellation)
    (hover : s.schedule.isOver = true) : s.step wanted node .report = some
      { s with
        reports := s.reports ++ [⟨s.schedule.total, s.schedule.completed, s.schedule.cancelled⟩]
        returned := true } := by
  rw [step, hr, hpoll, Schedule.summary?, if_pos hover]
  rfl

theorem step_of {e : ScheduleEvent} (h : s.step wanted node (.of e) = some t) :
    s.allows e = true ∧ ∃ u, s.schedule.step wanted node e = some u ∧ t =
      { s with
        schedule := u
        poll := s.pollAfter e
        started := s.started ++ s.schedule.startedBy e
        finished := s.finished ++ s.schedule.finishedBy e
        missed := s.missed ++ s.schedule.missedBy e } := by
  rw [step] at h
  split at h
  next ha =>
    obtain ⟨u, hu, rfl⟩ := Option.map_eq_some_iff.1 h
    exact ⟨ha, u, hu, rfl⟩
  next => contradiction

theorem step_pass (h : s.step wanted node .pass = some t) :
    s.canPass = true ∧ t = { s with poll := s.poll.next } := by
  rw [step] at h
  split at h
  next hpass =>
    cases h
    exact ⟨hpass, rfl⟩
  next => contradiction

theorem step_report (h : s.step wanted node .report = some t) :
    s.returned = false ∧ s.schedule.isOver = true ∧ t =
      { s with
        reports := s.reports ++ [⟨s.schedule.total, s.schedule.completed, s.schedule.cancelled⟩]
        returned := true } := by
  rw [step] at h
  split at h
  next hr =>
    rw [Bool.and_eq_true, Bool.not_eq_true'] at hr
    rw [Schedule.summary?] at h
    split at h
    next hover =>
      cases h
      exact ⟨hr.1, hover, rfl⟩
    next => contradiction
  next => contradiction

/-- The scheduler passes over what it does not find, but for a cancellation. -/
theorem step_pass_eq (hr : s.returned = false) (hover : s.schedule.isOver = false)
    (h : s.poll = .cancellation → s.schedule.mustNotice = false) :
    s.step wanted node .pass = some { s with poll := s.poll.next } := by
  refine if_pos ?_
  rw [canPass, hr, hover]
  by_cases hpoll : s.poll = .cancellation
  · rw [h hpoll, Bool.and_false]
    rfl
  · rw [decide_eq_false hpoll]
    rfl

theorem not_isOver_of_canPass (h : s.canPass = true) : s.schedule.isOver = false := by
  simp only [canPass, Bool.and_eq_true, Bool.not_eq_true'] at h
  exact h.1.2

theorem run_cons (e : SupervisionEvent) (events : List SupervisionEvent) :
    s.run wanted node (e :: events) = (s.step wanted node e).bind fun t => t.run wanted node events :=
  rfl

theorem run_singleton (e : SupervisionEvent) : s.run wanted node [e] = s.step wanted node e :=
  Option.bind_fun_some _

theorem run_append (events more : List SupervisionEvent) :
    s.run wanted node (events ++ more) =
      (s.run wanted node events).bind fun t => t.run wanted node more := by
  induction events generalizing s with
  | nil => rfl
  | cons e events ih =>
    rw [List.cons_append, run_cons, run_cons, Option.bind_assoc]
    exact congrArg (Option.bind (s.step wanted node e)) (funext fun t => ih)

/-- What each of the events keeps holds after all of them. -/
theorem run_keeps {P : Supervision → Prop} {events : List SupervisionEvent}
    (hkeeps : ∀ u v e, e ∈ events → P u → u.step wanted node e = some v → P v)
    (h : P s) (hrun : s.run wanted node events = some t) : P t := by
  induction events generalizing s with
  | nil =>
    cases hrun
    exact h
  | cons e events ih =>
    obtain ⟨u, hstep, hrest⟩ := Option.bind_eq_some_iff.1 hrun
    exact ih (fun u v e' he => hkeeps u v e' (List.mem_cons_of_mem _ he))
      (hkeeps s u e List.mem_cons_self h hstep) hrest

end Supervision

/-! ## Workers -/

namespace Worker

/-- Whether a worker has run to its end. -/
def hasFinished (w : Worker) : Bool :=
  match w.progress with
  | .ended completed => completed
  | .fetching | .sending _ => false

/-- The bin of a worker that has not ended. -/
def active (w : Worker) : List Bin := if w.hasEnded then [] else [w.bin]

/-- How an action leaves the worker of a bin: still at work, run to its end, or ended early. It ends early
only for a reason. -/
inductive Effect (accepts : BackfillMessage → Bool) (cancelRequested : Bool) (bin : Bin) :
    WorkerAction → Progress → Prop where
  | goesOn {action : WorkerAction} {progress : Progress} (hfinish : action ≠ .finish)
      (hended : hasEnded ⟨bin, progress⟩ = false) : Effect accepts cancelRequested bin action progress
  | finishes : Effect accepts cancelRequested bin .finish (.ended true)
  | stops (h : cancelRequested = true) : Effect accepts cancelRequested bin .stop (.ended false)
  | abandoned {m : BackfillMessage} (h : accepts m = false) :
      Effect accepts cancelRequested bin .send (.ended false)
  | breaksDown : Effect accepts cancelRequested bin .breakDown (.ended false)
  | unlisted (h : bin.hasRoom = false) : Effect accepts cancelRequested bin .fetch (.ended false)

variable {wanted : Option Selection} {node : Bin → Fetched} {accepts : BackfillMessage → Bool}
  {cancelRequested : Bool}

/-- Only a worker that has not ended acts, and this is all that an action does to it. -/
theorem step_effect {w : Worker} {action : WorkerAction} {progress : Progress}
    {sent : List BackfillMessage}
    (h : w.step wanted node accepts cancelRequested action = some (progress, sent)) :
    w.hasEnded = false ∧ Effect accepts cancelRequested w.bin action progress := by
  obtain ⟨bin, before⟩ := w
  cases action with
  | fetch =>
    cases before with
    | fetching =>
      cases h
      refine ⟨rfl, ?_⟩
      rw [Bin.afterFetch]
      split
      · exact .goesOn (by decide) rfl
      · next hroom => exact .unlisted (Bool.not_eq_true _ ▸ hroom)
    | sending | ended => cases h
  | send =>
    cases before with
    | fetching | ended => cases h
    | sending rest =>
      cases rest with
      | nil => cases h
      | cons m rest =>
        simp only [step] at h
        split at h
        next =>
          cases h
          exact ⟨rfl, .goesOn (by decide) rfl⟩
        next hm =>
          cases h
          exact ⟨rfl, .abandoned (Bool.not_eq_true _ ▸ hm)⟩
  | finish =>
    cases before with
    | fetching | ended => cases h
    | sending rest =>
      cases rest with
      | nil =>
        cases h
        exact ⟨rfl, .finishes⟩
      | cons m rest => cases h
  | stop =>
    simp only [step] at h
    split at h
    next hstop =>
      obtain ⟨hr, he⟩ := Bool.and_eq_true_iff.1 hstop
      cases h
      exact ⟨Bool.not_eq_true' _ ▸ he, .stops hr⟩
    next => cases h
  | breakDown =>
    simp only [step] at h
    split at h
    next => cases h
    next he =>
      cases h
      exact ⟨Bool.not_eq_true _ ▸ he, .breaksDown⟩

/-- A worker stands for its bin at most once: while it is at work, or when it runs to its end. -/
theorem Effect.share {bin : Bin} {action : WorkerAction} {progress : Progress}
    (h : Effect accepts cancelRequested bin action progress) :
    (action.finishedBin bin ++ active ⟨bin, progress⟩).Subperm [bin] ∧
      (action.finishedBin bin).length = if hasFinished ⟨bin, progress⟩ then 1 else 0 := by
  cases h with
  | goesOn hfinish hended =>
    have hnone : action.finishedBin bin = [] := by cases action <;> trivial
    have hunfinished : hasFinished ⟨bin, progress⟩ = false := by cases progress <;> trivial
    rw [hnone, active, hended, hunfinished]
    exact ⟨List.Subperm.refl _, rfl⟩
  | finishes => exact ⟨List.Subperm.refl _, rfl⟩
  | stops | abandoned | breaksDown | unlisted => exact ⟨List.nil_subperm, rfl⟩

/-- A worker that ends early does so because of the cancellation or a loss. -/
theorem Effect.reason {bin : Bin} {action : WorkerAction}
    (h : Effect accepts cancelRequested bin action (.ended false)) :
    cancelRequested = true ∨ (∃ m, accepts m = false) ∨ action = .breakDown ∨ bin.hasRoom = false := by
  cases h with
  | goesOn hfinish hended => contradiction
  | stops h => exact .inl h
  | abandoned h => exact .inr (.inl ⟨_, h⟩)
  | breaksDown => exact .inr (.inr (.inl rfl))
  | unlisted h => exact .inr (.inr (.inr h))

end Worker

namespace Schedule

theorem step_noticeCancel {wanted : Option Selection} {node : Bin → Fetched} {s t : Schedule}
    (h : s.step wanted node .noticeCancel = some t) :
    s.cancelRequested = true ∧ s.cancelled = false ∧ s.isOver = false ∧
      t = { s with pending := [], cancelled := true } := by
  simp only [step, Bool.and_eq_true, Bool.not_eq_true'] at h
  split at h
  next hc =>
    cases h
    exact ⟨hc.1.1, hc.1.2, hc.2, rfl⟩
  next => contradiction

theorem step_noticeCancel_eq {wanted : Option Selection} {node : Bin → Fetched} {s : Schedule}
    (hr : s.cancelRequested = true) (hc : s.cancelled = false) (hover : s.isOver = false) :
    s.step wanted node .noticeCancel = some { s with pending := [], cancelled := true } := by
  rw [step, hr, hc, hover]
  rfl

theorem missedBy_join {s : Schedule} {index : Nat} {bin : Bin} {completed : Bool}
    (h : s.workers[index]? = some ⟨bin, .ended completed⟩) :
    s.missedBy (.join index) = if completed || s.cancelled then [] else [bin] := by
  simp only [missedBy, h]
  cases completed <;> rfl

/-- The bins of the workers that have not ended. -/
def active (s : Schedule) : List Bin := s.workers.flatMap Worker.active

theorem length_active (s : Schedule) : s.active.length = s.running := by
  rw [active, running]
  induction s.workers with
  | nil => rfl
  | cons w workers ih =>
    rw [List.flatMap_cons, List.length_append, ih, List.countP_cons, Nat.add_comm, Worker.active]
    cases w.hasEnded <;> rfl

end Schedule

/-! ## What holds in every state -/

/-- What holds in every state of a backfill of bins. -/
structure Supervised (bins : List Bin) (maxInFlight : Nat) (s : Supervision) : Prop where
  total : s.schedule.total = bins.length
  limit : s.schedule.limit = max 1 maxInFlight
  running : s.schedule.running ≤ max 1 maxInFlight
  /-- The bins are started in order, each of them at most once. -/
  inOrder : s.started <+: bins
  /-- Until a cancellation is noticed, the bins that have not been started are still to be. -/
  next : s.schedule.cancelled = false → s.started ++ s.schedule.pending = bins
  noticed : s.schedule.cancelled = true →
    s.schedule.cancelRequested = true ∧ s.schedule.pending = []
  /-- No bin has two workers, and none is worked off twice. -/
  once : (s.finished ++ s.schedule.active).Subperm s.started
  /-- The workers that have run to their ends are counted when they are joined. -/
  counted : s.finished.length = s.schedule.completed + s.schedule.workers.countP Worker.hasFinished
  /-- Until a cancellation is noticed, a bin that has been joined has been counted or missed. -/
  left : s.schedule.cancelled = false → s.schedule.completed + s.missed.length +
    s.schedule.workers.length + s.schedule.pending.length = bins.length
  /-- The scheduler is at the beginning of a turn when there is nothing left to do. -/
  turn : s.schedule.isOver = true → s.poll = .cancellation
  reported : s.reports =
    if s.returned then [⟨bins.length, s.schedule.completed, s.schedule.cancelled⟩] else []
  emptied : s.returned = true → s.schedule.pending = [] ∧ s.schedule.workers = []

namespace Supervised

variable {wanted : Option Selection} {node : Bin → Fetched} {bins : List Bin} {maxInFlight : Nat}
  {s t : Supervision}

theorem initial (bins : List Bin) (maxInFlight : Nat) :
    Supervised bins maxInFlight (Supervision.initial bins maxInFlight) where
  total := rfl
  limit := rfl
  running := Nat.zero_le _
  inOrder := List.nil_prefix
  next _ := rfl
  noticed h := absurd h Bool.false_ne_true
  once := List.Subperm.refl _
  counted := rfl
  left _ := Nat.zero_add _
  turn _ := rfl
  reported := rfl
  emptied h := absurd h Bool.false_ne_true

/-- The scheduler does not return as long as a bin or a worker is left. -/
theorem returned_eq_false (h : Supervised bins maxInFlight s)
    (hleft : s.schedule.pending ≠ [] ∨ s.schedule.workers ≠ []) : s.returned = false := by
  cases hr : s.returned with
  | false => rfl
  | true =>
    obtain ⟨hp, hw⟩ := h.emptied hr
    exact (hleft.elim (· hp) (· hw)).elim

/-- The scheduler has not noticed a cancellation as long as a bin is left to start. -/
theorem cancelled_eq_false (h : Supervised bins maxInFlight s) (hleft : s.schedule.pending ≠ []) :
    s.schedule.cancelled = false := by
  cases hc : s.schedule.cancelled with
  | false => rfl
  | true => exact absurd (h.noticed hc).2 hleft

theorem start (h : Supervised bins maxInFlight s) (hstep : s.step wanted node (.of .start) = some t) :
    Supervised bins maxInFlight t := by
  obtain ⟨ha, u, hu, rfl⟩ := Supervision.step_of hstep
  obtain ⟨bin, rest, hp, hlt, rfl⟩ := Schedule.step_start hu
  have hleft : s.schedule.pending ≠ [] := hp ▸ List.cons_ne_nil _ _
  have hreturned := h.returned_eq_false (.inl hleft)
  have hcancelled := h.cancelled_eq_false hleft
  have hstarted : s.schedule.startedBy .start = [bin] := by rw [Schedule.startedBy, hp]; rfl
  have hfinished : s.schedule.finishedBy .start = [] := rfl
  have hmissed : s.schedule.missedBy .start = [] := rfl
  have hnext : s.started ++ [bin] ++ rest = bins := by
    rw [List.append_assoc, List.singleton_append, ← hp]
    exact h.next hcancelled
  rw [hstarted, hfinished, hmissed, List.append_nil, List.append_nil]
  constructor
  case total => exact h.total
  case limit => exact h.limit
  case running =>
    rw [h.limit] at hlt
    rw [Schedule.running, List.countP_append]
    exact hlt
  case inOrder => exact ⟨rest, hnext⟩
  case next => exact fun _ => hnext
  case noticed => exact fun hc => absurd (hcancelled.symm.trans hc) Bool.false_ne_true
  case once =>
    rw [Schedule.active, List.flatMap_append, ← List.append_assoc]
    exact (List.subperm_append_right [bin]).2 h.once
  case counted =>
    rw [List.countP_append]
    exact h.counted
  case left =>
    intro hc
    have hleft := h.left hc
    rw [hp, List.length_cons] at hleft
    rw [List.length_append, List.length_singleton]
    change s.schedule.completed + s.missed.length + _ + rest.length = _
    omega
  case turn => exact fun _ => rfl
  case reported => exact h.reported
  case emptied => exact fun hr => absurd (hreturned.symm.trans hr) Bool.false_ne_true

theorem act (h : Supervised bins maxInFlight s) {index : Nat} {action : WorkerAction}
    (hstep : s.step wanted node (.of (.act index action)) = some t) :
    Supervised bins maxInFlight t := by
  obtain ⟨-, u, hu, rfl⟩ := Supervision.step_of hstep
  obtain ⟨front, w, back, progress, sent, hget, hw, hact, rfl⟩ := Schedule.step_act hu
  obtain ⟨hended, heffect⟩ := Worker.step_effect hact
  obtain ⟨hshare, hlength⟩ := heffect.share
  have hstarted : s.schedule.startedBy (.act index action) = [] := rfl
  have hfinished : s.schedule.finishedBy (.act index action) = action.finishedBin w.bin := by
    rw [Schedule.finishedBy, hget]
    exact List.append_nil _
  have hmissed : s.schedule.missedBy (.act index action) = [] := rfl
  have hreturned := h.returned_eq_false
    (.inr (hw ▸ List.append_ne_nil_of_right_ne_nil _ (List.cons_ne_nil _ _)))
  have hworking : w.active = [w.bin] := by rw [Worker.active, hended]; rfl
  have hunfinished : w.hasFinished = false := by
    obtain ⟨bin, progress⟩ := w
    cases progress <;> trivial
  rw [hstarted, hfinished, hmissed, List.append_nil, List.append_nil]
  constructor
  case total => exact h.total
  case limit => exact h.limit
  case running =>
    have hrunning := h.running
    rw [Schedule.running, hw, List.countP_append, List.countP_cons, hended] at hrunning
    rw [Schedule.running, List.countP_append, List.countP_cons]
    refine Nat.le_trans (Nat.add_le_add_left (Nat.add_le_add_left ?_ _) _) hrunning
    split <;> decide
  case inOrder => exact h.inOrder
  case next => exact h.next
  case noticed => exact h.noticed
  case once =>
    have honce := h.once
    rw [Schedule.active, hw, List.flatMap_append, List.flatMap_cons, hworking] at honce
    rw [Schedule.active, List.flatMap_append, List.flatMap_cons]
    refine List.Subperm.trans (List.Perm.subperm ?_) (List.Subperm.trans
      ((List.subperm_append_left s.finished).2 ((List.subperm_append_left _).2
        ((List.subperm_append_right _).2 hshare))) honce)
    -- the bin of a worker that has finished moves from the workers to the finished ones
    rw [List.append_assoc, List.append_assoc]
    exact (List.perm_append_comm_assoc _ _ _).append_left _
  case counted =>
    have hcounted := h.counted
    rw [hw, List.countP_append, List.countP_cons, hunfinished] at hcounted
    rw [List.length_append, hlength, hcounted, List.countP_append, List.countP_cons]
    simp only [Bool.false_eq_true, if_false]
    omega
  case left =>
    intro hc
    have hleft := h.left hc
    rw [hw, List.length_append, List.length_cons] at hleft
    rw [List.length_append, List.length_cons]
    exact hleft
  case turn =>
    intro hover
    simp [Schedule.isOver] at hover
  case reported => exact h.reported
  case emptied => exact fun hr => absurd (hreturned.symm.trans hr) Bool.false_ne_true

theorem join (h : Supervised bins maxInFlight s) {index : Nat}
    (hstep : s.step wanted node (.of (.join index)) = some t) : Supervised bins maxInFlight t := by
  obtain ⟨-, u, hu, rfl⟩ := Supervision.step_of hstep
  obtain ⟨front, bin, completed, back, hget, hw, rfl⟩ := Schedule.step_join hu
  have hstarted : s.schedule.startedBy (.join index) = [] := rfl
  have hfinished : s.schedule.finishedBy (.join index) = [] := rfl
  have hended : Worker.hasEnded ⟨bin, .ended completed⟩ = true := rfl
  have hreturned := h.returned_eq_false
    (.inr (hw ▸ List.append_ne_nil_of_right_ne_nil _ (List.cons_ne_nil _ _)))
  rw [hstarted, hfinished, List.append_nil, List.append_nil]
  constructor
  case total => exact h.total
  case limit => exact h.limit
  case running =>
    have hrunning := h.running
    rw [Schedule.running, hw, List.countP_append, List.countP_cons, hended] at hrunning
    rw [Schedule.running, List.countP_append]
    exact hrunning
  case inOrder => exact h.inOrder
  case next => exact h.next
  case noticed => exact h.noticed
  case once =>
    have honce := h.once
    rw [Schedule.active, hw, List.flatMap_append, List.flatMap_cons] at honce
    rw [Schedule.active, List.flatMap_append]
    exact honce
  case counted =>
    have hcounted := h.counted
    rw [hw, List.countP_append, List.countP_cons] at hcounted
    rw [List.countP_append]
    cases completed with
    | false => exact hcounted
    | true =>
      simp only [Worker.hasFinished, if_true] at hcounted
      change s.finished.length = s.schedule.completed + 1 + _
      omega
  case left =>
    intro hc
    change s.schedule.cancelled = false at hc
    have hleft := h.left hc
    rw [hw, List.length_append, List.length_cons] at hleft
    rw [Schedule.missedBy_join hget, hc, Bool.or_false, List.length_append, List.length_append]
    cases completed with
    | false =>
      change s.schedule.completed + (s.missed.length + 1) + _ + s.schedule.pending.length = _
      omega
    | true =>
      change s.schedule.completed + 1 + (s.missed.length + 0) + _ + s.schedule.pending.length = _
      omega
  case turn => exact fun _ => rfl
  case reported =>
    rw [hreturned]
    exact h.reported.trans (by rw [hreturned]; rfl)
  case emptied => exact fun hr => absurd (hreturned.symm.trans hr) Bool.false_ne_true

theorem noticeCancel (h : Supervised bins maxInFlight s)
    (hstep : s.step wanted node (.of .noticeCancel) = some t) : Supervised bins maxInFlight t := by
  obtain ⟨ha, u, hu, rfl⟩ := Supervision.step_of hstep
  obtain ⟨hrequested, -, -, rfl⟩ := Schedule.step_noticeCancel hu
  have hreturned : s.returned = false := Bool.not_eq_true' _ ▸ (Bool.and_eq_true_iff.1 ha).1
  have hstarted : s.schedule.startedBy .noticeCancel = [] := rfl
  have hfinished : s.schedule.finishedBy .noticeCancel = [] := rfl
  have hmissed : s.schedule.missedBy .noticeCancel = [] := rfl
  rw [hstarted, hfinished, hmissed, List.append_nil, List.append_nil, List.append_nil]
  exact { h with
    left := fun hc => absurd hc.symm Bool.false_ne_true
    turn := fun _ => rfl
    next := fun hc => absurd hc.symm Bool.false_ne_true
    noticed := fun _ => ⟨hrequested, rfl⟩
    reported := by rw [h.reported, hreturned]; rfl
    emptied := fun hr => absurd (hreturned.symm.trans hr) Bool.false_ne_true }

/-- **An event** keeps what holds in every state. -/
theorem step (h : Supervised bins maxInFlight s) {e : SupervisionEvent}
    (hstep : s.step wanted node e = some t) : Supervised bins maxInFlight t := by
  cases e with
  | report =>
    obtain ⟨hr, hover, rfl⟩ := Supervision.step_report hstep
    simp only [Schedule.isOver, Bool.and_eq_true, List.isEmpty_iff] at hover
    exact { h with
      reported := by rw [h.reported, hr, h.total]; rfl
      emptied := fun _ => hover }
  | pass =>
    obtain ⟨hpass, rfl⟩ := Supervision.step_pass hstep
    have hover := Supervision.not_isOver_of_canPass hpass
    exact { h with turn := fun hover' => absurd (hover.symm.trans hover') Bool.false_ne_true }
  | of e =>
    cases e with
    | start => exact h.start hstep
    | act index action => exact h.act hstep
    | join index => exact h.join hstep
    | noticeCancel => exact h.noticeCancel hstep
    | requestCancel =>
      cases hstep
      rw [Schedule.startedBy, Schedule.finishedBy, Schedule.missedBy, List.append_nil, List.append_nil,
        List.append_nil]
      exact { h with noticed := fun hc => ⟨rfl, (h.noticed hc).2⟩ }
    | closeDiffs | closeErrors =>
      cases hstep
      rw [Schedule.startedBy, Schedule.finishedBy, Schedule.missedBy, List.append_nil, List.append_nil,
        List.append_nil]
      exact { h with }

/-- **What holds in every state** of a backfill of bins, whatever happens and in whichever order. -/
theorem run (h : Supervised bins maxInFlight s) {events : List SupervisionEvent}
    (hrun : s.run wanted node events = some t) : Supervised bins maxInFlight t :=
  Supervision.run_keeps (fun _ _ _ _ hu hstep => hu.step hstep) h hrun

/-- At most as many bins are counted as have been started. -/
theorem completed_le (h : Supervised bins maxInFlight s) :
    s.schedule.completed + s.schedule.running ≤ s.started.length := by
  have honce := h.once.length_le
  rw [List.length_append, Schedule.length_active, h.counted] at honce
  omega

/-- **The summary is sent once, after the last worker**, and counts those that ran to their ends. -/
theorem of_mem_reports (h : Supervised bins maxInFlight s) {summary : Summary}
    (hmem : summary ∈ s.reports) : s.schedule.pending = [] ∧ s.schedule.workers = [] ∧
      s.reports = [summary] ∧ summary = ⟨bins.length, s.finished.length, s.schedule.cancelled⟩ := by
  have hreported := h.reported
  cases hr : s.returned with
  | false =>
    rw [hreported, hr] at hmem
    exact absurd hmem List.not_mem_nil
  | true =>
    obtain ⟨hp, hw⟩ := h.emptied hr
    have hfinished : s.finished.length = s.schedule.completed := by rw [h.counted, hw]; rfl
    rw [hr, if_pos rfl, ← hfinished] at hreported
    rw [hreported] at hmem
    obtain rfl := List.mem_singleton.1 hmem
    exact ⟨hp, hw, hreported, rfl⟩

/-- Once the cancellation has been noticed, an event starts no bin. -/
theorem step_noticed (h : Supervised bins maxInFlight s) (hc : s.schedule.cancelled = true)
    {e : SupervisionEvent} (hstep : s.step wanted node e = some t) :
    t.schedule.cancelled = true ∧ t.started = s.started := by
  cases e with
  | report =>
    obtain ⟨-, -, rfl⟩ := Supervision.step_report hstep
    exact ⟨hc, rfl⟩
  | pass =>
    obtain ⟨-, rfl⟩ := Supervision.step_pass hstep
    exact ⟨hc, rfl⟩
  | of e =>
    obtain ⟨-, u, hu, rfl⟩ := Supervision.step_of hstep
    cases e with
    | start =>
      obtain ⟨bin, rest, hp, -, -⟩ := Schedule.step_start hu
      have hcancelled := h.cancelled_eq_false (hp ▸ List.cons_ne_nil _ _)
      exact absurd (hcancelled.symm.trans hc) Bool.false_ne_true
    | act index action =>
      obtain ⟨front, w, back, progress, sent, -, -, -, rfl⟩ := Schedule.step_act hu
      exact ⟨hc, List.append_nil _⟩
    | join index =>
      obtain ⟨front, bin, completed, back, -, -, rfl⟩ := Schedule.step_join hu
      exact ⟨hc, List.append_nil _⟩
    | noticeCancel =>
      obtain ⟨-, -, -, rfl⟩ := Schedule.step_noticeCancel hu
      exact ⟨rfl, List.append_nil _⟩
    | requestCancel | closeDiffs | closeErrors =>
      cases hu
      exact ⟨hc, List.append_nil _⟩

/-- **Once the cancellation has been noticed no bin is started.** -/
theorem started_run (h : Supervised bins maxInFlight s) (hc : s.schedule.cancelled = true)
    {events : List SupervisionEvent} (hrun : s.run wanted node events = some t) :
    t.schedule.cancelled = true ∧ t.started = s.started := by
  refine (Supervision.run_keeps (P := fun u => Supervised bins maxInFlight u ∧
    u.schedule.cancelled = true ∧ u.started = s.started) ?_ ⟨h, hc, rfl⟩ hrun).2
  intro u v e _ hu hstep
  obtain ⟨hv, hstarted⟩ := hu.1.step_noticed hu.2.1 hstep
  exact ⟨hu.1.step hstep, hv, hstarted.trans hu.2.2⟩

end Supervised

end SlotIndex
