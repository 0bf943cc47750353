import SlotIndex.Proofs.Backfill.InTurn
import SlotIndex.Proofs.Backfill.Losses

/-!
# The summary of a backfill

Whatever has happened, the scheduler and the workers can bring a backfill to its end, and only finitely
many of their steps are still to come. The summary is sent there, once. A cancelled backfill gets there
without another answer of the node and without another message. A summary that does not speak of a
cancellation counts all bins but those that have been missed.

* `SupervisionEvent.isOwn`, `SupervisionEvent.isPrompt`: what the scheduler and the workers do by themselves,
  and what they do when nobody answers them.
* `Supervision.work`: the number of steps that are still to come at most; `work_step`, `work_run`.
* `Supervision.exists_passes`: the way to what the scheduler is to ask for.
* `Supervision.GoesOn`, `Supervised.goesOn`, **`Supervised.exists_run`**: the way to the end.
* **`reported_of_run`**: what every run and its summary are; `incomplete_summary`.
-/

namespace SlotIndex

/-! ## Steps that are still to come -/

variable (wanted : Option Selection) (node : Bin → Fetched)

/-- What the scheduler and the workers do by themselves. A question that finds nothing does not count. -/
def SupervisionEvent.isOwn : SupervisionEvent → Bool
  | .of .requestCancel | .of .closeDiffs | .of .closeErrors | .of (.act _ .breakDown) | .pass => false
  | .of .start | .of (.act ..) | .of (.join _) | .of .noticeCancel | .report => true

/-- What they do that neither the node nor a receiver can delay. -/
def SupervisionEvent.isPrompt : SupervisionEvent → Bool
  | .of (.act _ .stop) | .of (.join _) | .of .noticeCancel | .pass | .report => true
  | .of .start | .of (.act ..) | .of .requestCancel | .of .closeDiffs | .of .closeErrors => false

/-- How many own steps are still to come at most. -/
def Supervision.work (s : Supervision) : Nat :=
  s.schedule.work wanted node + (if s.schedule.cancelled then 0 else 1) + (if s.returned then 0 else 1)

variable {wanted node}

/-- Every action leaves a worker less to do. -/
theorem Worker.work_step {accepts : BackfillMessage → Bool} {cancelRequested : Bool} {w : Worker}
    {action : WorkerAction} {progress : Progress} {sent : List BackfillMessage}
    (h : w.step wanted node accepts cancelRequested action = some (progress, sent)) :
    work wanted node { w with progress } < w.work wanted node := by
  obtain ⟨hended, heffect⟩ := step_effect h
  obtain ⟨bin, before⟩ := w
  have hleast : 1 < work wanted node ⟨bin, before⟩ := by
    cases before with
    | ended completed => contradiction
    | fetching =>
      change 1 < bin.work wanted node
      rw [Bin.work]
      split <;> omega
    | sending rest => exact Nat.le_add_left 2 _
  cases heffect with
  | finishes | stops | abandoned | breaksDown | unlisted => exact hleast
  | goesOn hfinish hgoes =>
    -- an action that ends no worker takes the answer or hands over a message
    cases action with
    | fetch =>
      cases before with
      | fetching =>
        cases h
        cases hroom : bin.hasRoom <;> simp [work, Bin.work, Bin.afterFetch, hroom]
      | sending | ended => contradiction
    | send =>
      cases before with
      | fetching | ended => contradiction
      | sending rest =>
        cases rest with
        | nil => contradiction
        | cons m rest =>
          simp only [step] at h
          split at h
          next =>
            cases h
            exact Nat.lt_succ_self _
          next =>
            cases h
            contradiction
    | finish => contradiction
    | stop =>
      simp only [step] at h
      split at h
      next =>
        cases h
        contradiction
      next => contradiction
    | breakDown =>
      simp only [step] at h
      split at h
      next => contradiction
      next =>
        cases h
        contradiction

namespace Supervision

variable {s t : Supervision}

/-- **An own step** leaves less to come, and no other event leaves more. -/
theorem work_step {e : SupervisionEvent}
    (hstep : s.step wanted node e = some t) :
    t.work wanted node + (if e.isOwn then 1 else 0) ≤ s.work wanted node := by
  cases e with
  | report =>
    obtain ⟨hr, -, rfl⟩ := Supervision.step_report hstep
    rw [Supervision.work, Supervision.work, hr]
    exact Nat.le_refl _
  | pass =>
    obtain ⟨-, rfl⟩ := Supervision.step_pass hstep
    exact Nat.le_refl _
  | of e =>
    obtain ⟨ha, u, hu, rfl⟩ := Supervision.step_of hstep
    cases e with
    | start =>
      obtain ⟨bin, rest, hp, -, rfl⟩ := Schedule.step_start hu
      simp only [Supervision.work, Schedule.work, hp, List.map_append, List.sum_append, List.map_cons,
        List.sum_cons, List.map_nil, List.sum_nil, Worker.work, SupervisionEvent.isOwn, if_true]
      omega
    | act index action =>
      obtain ⟨front, w, back, progress, sent, -, hw, hact, rfl⟩ := Schedule.step_act hu
      have hless := Worker.work_step hact
      have hown : (if (SupervisionEvent.of (.act index action)).isOwn then 1 else 0) ≤ 1 := by
        split <;> decide
      simp only [Supervision.work, Schedule.work, hw, List.map_append, List.sum_append, List.map_cons,
        List.sum_cons]
      omega
    | join index =>
      obtain ⟨front, bin, completed, back, -, hw, rfl⟩ := Schedule.step_join hu
      simp only [Supervision.work, Schedule.work, hw, List.map_append, List.sum_append, List.map_cons,
        List.sum_cons, Worker.work, SupervisionEvent.isOwn, if_true]
      omega
    | noticeCancel =>
      obtain ⟨-, hc, -, rfl⟩ := Schedule.step_noticeCancel hu
      simp only [Supervision.work, Schedule.work, hc, List.map_nil, List.sum_nil, Bool.false_eq_true,
        if_false, if_true, SupervisionEvent.isOwn]
      omega
    | requestCancel | closeDiffs | closeErrors =>
      cases hu
      exact Nat.le_refl _

/-- **A run** has no more own steps than there are to come at most. -/
theorem work_run {events : List SupervisionEvent} (hrun : s.run wanted node events = some t) :
    events.countP SupervisionEvent.isOwn + t.work wanted node ≤ s.work wanted node := by
  induction events generalizing s with
  | nil =>
    cases hrun
    exact Nat.le_of_eq (Nat.zero_add _)
  | cons e events ih =>
    obtain ⟨u, hstep, hrest⟩ := Option.bind_eq_some_iff.1 hrun
    have hu := work_step hstep
    have ht := ih hrest
    rw [List.countP_cons]
    omega

/-- A cancellation that has been requested stays so. -/
theorem requested_step (hr : s.schedule.cancelRequested = true) {e : SupervisionEvent}
    (hstep : s.step wanted node e = some t) : t.schedule.cancelRequested = true := by
  cases e with
  | report =>
    obtain ⟨-, -, rfl⟩ := step_report hstep
    exact hr
  | pass =>
    obtain ⟨-, rfl⟩ := step_pass hstep
    exact hr
  | of e =>
    obtain ⟨-, u, hu, rfl⟩ := step_of hstep
    cases e with
    | start =>
      obtain ⟨bin, rest, -, -, rfl⟩ := Schedule.step_start hu
      exact hr
    | act index action =>
      obtain ⟨front, w, back, progress, sent, -, -, -, rfl⟩ := Schedule.step_act hu
      exact hr
    | join index =>
      obtain ⟨front, bin, completed, back, -, -, rfl⟩ := Schedule.step_join hu
      exact hr
    | noticeCancel =>
      obtain ⟨-, -, -, rfl⟩ := Schedule.step_noticeCancel hu
      exact hr
    | requestCancel =>
      cases hu
      rfl
    | closeDiffs | closeErrors =>
      cases hu
      exact hr

theorem requested_run (hr : s.schedule.cancelRequested = true) {events : List SupervisionEvent}
    (hrun : s.run wanted node events = some t) : t.schedule.cancelRequested = true :=
  run_keeps (P := fun u => u.schedule.cancelRequested = true)
    (fun _ _ _ _ hu hstep => requested_step hu hstep) hr hrun

/-- A scheduler that has nothing to notice gets to each of its questions, and one that has a cancellation to
notice gets to asking for it. -/
theorem exists_passes (wanted : Option Selection) (node : Bin → Fetched) (hr : s.returned = false)
    (hover : s.schedule.isOver = false) {poll : Poll}
    (hnotice : poll ≠ .cancellation → s.schedule.mustNotice = false) :
    ∃ n, s.run wanted node (List.replicate n .pass) = some { s with poll := poll } := by
  let f (p : Poll) : Supervision := { s with poll := p }
  have hworkers : (f .workers).run wanted node [.pass] = some (f .permit) :=
    (run_singleton _).trans (step_pass_eq hr hover Poll.noConfusion)
  have hpermit : (f .permit).run wanted node [.pass] = some (f .cancellation) :=
    (run_singleton _).trans (step_pass_eq hr hover Poll.noConfusion)
  -- the beginning of a turn is reached without passing over a cancellation
  have hturn : ∀ p, ∃ n, (f p).run wanted node (List.replicate n .pass) = some (f .cancellation) := by
    intro p
    cases p with
    | cancellation => exact ⟨0, rfl⟩
    | permit => exact ⟨1, hpermit⟩
    | workers =>
      have htwo : (f .workers).run wanted node ([.pass] ++ [.pass]) = _ := run_append _ _
      rw [hworkers, Option.bind_some, hpermit] at htwo
      exact ⟨2, htwo⟩
  have hway : ∃ n, (f .cancellation).run wanted node (List.replicate n .pass) = some (f poll) := by
    have hpass : poll ≠ .cancellation → (f .cancellation).run wanted node [.pass] = some (f .workers) :=
      fun hpoll => (run_singleton _).trans (step_pass_eq hr hover fun _ => hnotice hpoll)
    cases poll with
    | cancellation => exact ⟨0, rfl⟩
    | workers => exact ⟨1, hpass Poll.noConfusion⟩
    | permit =>
      have htwo : (f .cancellation).run wanted node ([.pass] ++ [.pass]) = _ := run_append _ _
      rw [hpass Poll.noConfusion, Option.bind_some, hworkers] at htwo
      exact ⟨2, htwo⟩
  obtain ⟨n, hn⟩ := hturn s.poll
  obtain ⟨m, hm⟩ := hway
  have hboth : (f s.poll).run wanted node (List.replicate n .pass ++ List.replicate m .pass) = _ :=
    run_append _ _
  rw [hn, Option.bind_some, hm, List.replicate_append_replicate] at hboth
  exact ⟨n + m, hboth⟩

end Supervision

/-! ## The way to the end -/

namespace Supervision

variable {s : Supervision} (wanted node)

/-- There is an own step after questions of the scheduler that find nothing, and in a cancelled backfill it
is one that nobody can delay. -/
def GoesOn (s : Supervision) : Prop :=
  ∃ n e t, e.isOwn = true ∧ (s.schedule.cancelRequested = true → e.isPrompt = true) ∧
    s.run wanted node (List.replicate n .pass ++ [e]) = some t

variable {wanted node}

/-- What the scheduler may do when it has asked for it, it does after its questions. -/
theorem goesOn_of_asked (poll : Poll) {e : ScheduleEvent} {u : Schedule}
    (hallows : ∀ {v : Supervision}, v.returned = false → v.poll = poll → v.allows e = true)
    (hr : s.returned = false) (hover : s.schedule.isOver = false)
    (hnotice : poll ≠ .cancellation → s.schedule.mustNotice = false)
    (hown : (SupervisionEvent.of e).isOwn = true)
    (hprompt : s.schedule.cancelRequested = true → (SupervisionEvent.of e).isPrompt = true)
    (hu : s.schedule.step wanted node e = some u) : s.GoesOn wanted node := by
  obtain ⟨n, hn⟩ := exists_passes wanted node hr hover hnotice
  obtain ⟨t, ht⟩ : ∃ t, ({ s with poll := poll } : Supervision).step wanted node (.of e) = some t :=
    ⟨_, step_of_eq (hallows hr rfl) hu⟩
  refine ⟨n, .of e, t, hown, hprompt, ?_⟩
  rw [run_append, hn, Option.bind_some, run_singleton, ht]

/-- A worker that has not ended acts, and one that has ended is joined. -/
theorem goesOn_of_worker {w : Worker} {workers : List Worker} (hr : s.returned = false)
    (hnotice : s.schedule.mustNotice = false) (hw : s.schedule.workers = w :: workers) :
    s.GoesOn wanted node := by
  have hget : s.schedule.workers[0]? = some w := by rw [hw]; rfl
  cases hended : w.hasEnded with
  | false =>
    obtain ⟨action, result, haction, hstop, hact⟩ := Worker.exists_step wanted node s.schedule.accepts
      s.schedule.cancelRequested hended
    refine ⟨0, .of (.act 0 action), _, ?_, fun hq => ?_, (run_singleton _).trans
      (step_of_eq rfl (Schedule.step_act_eq hget hact))⟩
    · cases action <;> trivial
    · rw [hstop hq]
      rfl
  | true =>
    obtain ⟨bin, progress⟩ := w
    cases progress with
    | fetching | sending => contradiction
    | ended completed =>
      have hover : s.schedule.isOver = false := by rw [Schedule.isOver, hw]; exact Bool.and_false _
      exact goesOn_of_asked .workers asked_eq_true hr hover (fun _ => hnotice) rfl
        (fun _ => rfl) (Schedule.step_join_eq hget)

end Supervision

namespace Supervised

variable {bins : List Bin} {maxInFlight : Nat} {s : Supervision} (wanted node)

/-- A bin is started when there is no worker and no cancellation to be noticed. -/
theorem goesOn_of_bin (h : Supervised bins maxInFlight s) {bin : Bin} {rest : List Bin}
    (hnotice : s.schedule.mustNotice = false) (hw : s.schedule.workers = [])
    (hp : s.schedule.pending = bin :: rest) : s.GoesOn wanted node := by
  have hleft : s.schedule.pending ≠ [] := hp ▸ List.cons_ne_nil _ _
  have hr := h.returned_eq_false (.inl hleft)
  have hover : s.schedule.isOver = false := by rw [Schedule.isOver, hp]; rfl
  have hlt : s.schedule.running < s.schedule.limit := by
    rw [Schedule.running, hw, h.limit]
    exact Nat.lt_of_lt_of_le Nat.one_pos (Nat.le_max_left 1 maxInFlight)
  -- a cancellation that has been noticed leaves no bin to be started
  have hnever : s.schedule.cancelRequested = false := by
    rwa [Schedule.mustNotice, h.cancelled_eq_false hleft, Bool.not_false, Bool.and_true] at hnotice
  exact Supervision.goesOn_of_asked .permit Supervision.asked_eq_true hr hover
    (fun _ => hnotice) rfl (fun hq => absurd (hnever.symm.trans hq) Bool.false_ne_true)
    (Schedule.step_start_eq hp hlt)

/-- **Until the scheduler has returned, a backfill goes on.** -/
theorem goesOn (h : Supervised bins maxInFlight s) (hr : s.returned = false) : s.GoesOn wanted node := by
  cases hover : s.schedule.isOver with
  | true => exact ⟨0, .report, _, rfl, fun _ => rfl,
      (Supervision.run_singleton _).trans (Supervision.step_report_eq hr (h.turn hover) hover)⟩
  | false =>
    cases hnotice : s.schedule.mustNotice with
    | true =>
      obtain ⟨hq, hc⟩ := Bool.and_eq_true_iff.1 hnotice
      rw [Bool.not_eq_true'] at hc
      exact Supervision.goesOn_of_asked .cancellation Supervision.asked_eq_true hr hover
        (fun hne => absurd rfl hne) rfl (fun _ => rfl) (Schedule.step_noticeCancel_eq hq hc hover)
    | false =>
      cases hw : s.schedule.workers with
      | cons w workers => exact Supervision.goesOn_of_worker hr hnotice hw
      | nil =>
        cases hp : s.schedule.pending with
        | cons bin rest => exact h.goesOn_of_bin wanted node hnotice hw hp
        | nil => simp [Schedule.isOver, hw, hp] at hover

/-- **Every state leads to the end** by own steps and questions that find nothing, in a cancelled backfill by
steps that nobody can delay. -/
theorem exists_run (h : Supervised bins maxInFlight s) :
    ∃ events t, (∀ e ∈ events, e.isOwn = true ∨ e = .pass) ∧
      (s.schedule.cancelRequested = true → ∀ e ∈ events, e.isPrompt = true) ∧
      s.run wanted node events = some t ∧ t.returned = true := by
  induction hn : s.work wanted node using Nat.strongRecOn generalizing s with
  | ind n ih =>
    cases hr : s.returned with
    | true =>
      exact ⟨[], s, fun e he => absurd he List.not_mem_nil, fun _ e he => absurd he List.not_mem_nil,
        rfl, hr⟩
    | false =>
      obtain ⟨k, e, u, hown, hprompt, hfirst⟩ := h.goesOn wanted node hr
      have hless := Supervision.work_run hfirst
      rw [List.countP_append, List.countP_singleton, hown, if_pos rfl] at hless
      obtain ⟨events, t, howns, hprompts, hrun, ht⟩ :=
        ih (u.work wanted node) (by omega) (h.run hfirst) rfl
      have hmem : ∀ e' ∈ List.replicate k .pass ++ [e] ++ events, e' = .pass ∨ e' = e ∨ e' ∈ events := by
        intro e' he
        rcases List.mem_append.1 he with he | he
        · exact (List.mem_append.1 he).imp List.eq_of_mem_replicate fun he => .inl (List.mem_singleton.1 he)
        · exact .inr (.inr he)
      refine ⟨List.replicate k .pass ++ [e] ++ events, t, fun e' he => ?_, fun hq e' he => ?_, ?_, ht⟩
      · rcases hmem e' he with rfl | rfl | he
        · exact .inr rfl
        · exact .inl hown
        · exact howns e' he
      · rcases hmem e' he with rfl | rfl | he
        · rfl
        · exact hprompt hq
        · exact hprompts (Supervision.requested_run hq hfirst) e' he
      · rw [Supervision.run_append, hfirst]
        exact hrun

end Supervised

/-! ## The summary -/

/-- **The summary of a backfill tells what has been done**, with any number of workers at a time that can be
counted and whatever happens to them, in any order. At most as many workers are at work as allowed, bins are
started in order and at most once, and none after the cancellation has been noticed. A summary that does not
speak of a cancellation counts all bins but the missed ones. As long as no receiver goes away and no worker
breaks down, a bin is missed only after a cancellation has been requested, and none is if each request comes
when the scheduler is about to ask for it. Every state leads on to the summary, which is sent once and after
the last worker, and only finitely many own steps are made until then; once cancellation has been requested
nobody can delay them. What is computed bin by bin is such a run. -/
theorem reported_of_run (wanted : Option Selection) (node : Bin → Fetched) (bins : List Bin)
    (maxInFlight : Nat) :
    ((∃ start, Supervision.initial? bins maxInFlight = some start) ↔
      maxInFlight ≤ Schedule.maxPermits) ∧
    ∀ start, Supervision.initial? bins maxInFlight = some start →
      (∀ events s, start.run wanted node events = some s →
        Supervised bins maxInFlight s ∧ s.schedule.completed ≤ bins.length ∧
        (s.schedule.cancelled = true →
          ∀ more t, s.run wanted node more = some t → t.started = s.started) ∧
        (∀ summary ∈ s.reports, s.reports = [summary] ∧ s.schedule.running = 0 ∧
          summary = ⟨bins.length, s.finished.length, s.schedule.cancelled⟩ ∧
          (summary.cancelled = false → summary.completed + s.missed.length = bins.length)) ∧
        ((∀ b ∈ bins, b.hasRoom = true) → (∀ e ∈ events, e.isLossless = true) →
          s.schedule.cancelRequested = false ∨ start.Timely wanted node events →
            s.missed = [] ∧
            ∀ summary ∈ s.reports, summary.cancelled = false → summary.completed = bins.length) ∧
        events.countP SupervisionEvent.isOwn ≤ start.work wanted node ∧
        ∃ more t, (∀ e ∈ more, e.isOwn = true ∨ e = .pass) ∧
          (s.schedule.cancelRequested = true → ∀ e ∈ more, e.isPrompt = true) ∧
          s.run wanted node more = some t ∧ t.reports.length = 1) ∧
      (bins ≠ [] → ∀ (answer : Nat → Bin → Option Fetched),
        (∀ number b fetched, answer number b = some fetched → fetched = node b) →
        ∀ diffsOpen errorsOpen cancelled, ∃ events t,
          (diffsOpen = true → errorsOpen = true → ∀ e ∈ events, e.isLossless = true) ∧
          start.run wanted node events = some t ∧
          t.schedule.sent =
            (runBackfill wanted (receivers diffsOpen errorsOpen) answer cancelled bins).messages ∧
          t.started.filter Bin.hasRoom =
            (runBackfill wanted (receivers diffsOpen errorsOpen) answer cancelled bins).asked ∧
          t.reports =
            [(runBackfill wanted (receivers diffsOpen errorsOpen) answer cancelled bins).summary
              bins]) := by
  refine ⟨Supervision.exists_initial?_iff, fun start hstart => ?_⟩
  obtain ⟨-, rfl⟩ := Supervision.initial?_eq_some hstart
  refine ⟨fun events s hrun => ?_, fun hbins answer hanswer =>
    exists_run_runBackfill wanted hbins maxInFlight hanswer⟩
  have hs := (Supervised.initial bins maxInFlight).run hrun
  have hbins := hs.inOrder.length_le
  have hcompleted := hs.completed_le
  have hwork := Supervision.work_run hrun
  obtain ⟨more, t, hown, hprompt, hmore, ht⟩ := hs.exists_run wanted node
  refine ⟨hs, by omega, fun hc more t hmore => (hs.started_run hc hmore).2, fun summary hmem => ?_,
    fun hroom he hnone => ?_, by omega, more, t, hown, hprompt, hmore, ?_⟩
  · obtain ⟨-, hw, hone, hsummary⟩ := hs.of_mem_reports hmem
    exact ⟨hone, by rw [Schedule.running, hw]; rfl, hsummary, hs.completed_add_missed hmem⟩
  · have hmissed : s.missed = [] := by
      rcases hnone with hr | htimely
      · exact ((Intact.initial hroom maxInFlight).run he hrun).missed hr
      · exact ((Prompt.initial hroom maxInFlight).run he htimely hrun).noneMissed
    refine ⟨hmissed, fun summary hmem hc => ?_⟩
    have hall := hs.completed_add_missed hmem hc
    rwa [hmissed, List.length_nil, Nat.add_zero] at hall
  · rw [(hs.run hmore).reported, ht]
    rfl

/-- Three heights, each a bin of its own. -/
def threeBins : List Bin := [⟨1, 1⟩, ⟨2, 2⟩, ⟨3, 3⟩]

/-- The scheduler finds nothing to join and starts a bin. -/
def startTurn : List SupervisionEvent := [.pass, .pass, .of .start]

/-- Two workers, of which the second one stops before the scheduler notices the cancellation. -/
def cancelledEvents : List SupervisionEvent :=
  startTurn ++ [.of (.act 0 .fetch)] ++ startTurn ++
    [.of .requestCancel, .of (.act 0 .send), .of (.act 1 .stop), .of (.act 0 .finish), .of .noticeCancel]

/-- The scheduler joins both and returns. -/
def lastEvents : List SupervisionEvent := [.pass, .of (.join 1), .pass, .of (.join 0), .report]

/-- Two workers without a cancellation, of which the second one is joined first. -/
def completeEvents : List SupervisionEvent :=
  startTurn ++ [.of (.act 0 .fetch)] ++ startTurn ++
    [.of (.act 1 .fetch), .of (.act 1 .send), .of (.act 1 .finish), .pass, .of (.join 1),
      .of (.act 0 .send)] ++ startTurn ++
    [.of (.act 0 .finish), .pass, .of (.join 0), .of (.act 0 .fetch), .of (.act 0 .send),
      .of (.act 0 .finish), .pass, .of (.join 0), .report]

theorem reported_of_run_three :
    ∃ start, Supervision.initial? threeBins 2 = some start ∧
      (∃ s t, start.run none (fun _ => .ok []) cancelledEvents = some s ∧
        s.run none (fun _ => .ok []) lastEvents = some t ∧ Supervised threeBins 2 s ∧
        s.started = [⟨1, 1⟩, ⟨2, 2⟩] ∧ t.started = s.started ∧ t.reports = [⟨3, 1, true⟩]) ∧
      (∃ t, start.run none (fun _ => .ok []) completeEvents = some t ∧
        ∃ summary ∈ t.reports, summary.cancelled = false ∧ summary.completed = threeBins.length) ∧
      ∃ events t, start.run none (fun _ => .ok []) events = some t ∧ t.reports = [⟨3, 1, true⟩] := by
  have hstart : Supervision.initial? threeBins 2 = some (.initial threeBins 2) := rfl
  obtain ⟨hruns, hcomputed⟩ := (reported_of_run none (fun _ => .ok []) threeBins 2).2 _ hstart
  refine ⟨_, hstart, ?_, ?_, ?_⟩
  · have hstop : ((Supervision.initial threeBins 2).run none (fun _ => .ok []) cancelledEvents).map
        (fun s => (s.started, s.schedule.cancelled)) = some ([⟨1, 1⟩, ⟨2, 2⟩], true) := by
      decide +kernel
    have hend : (((Supervision.initial threeBins 2).run none (fun _ => .ok []) cancelledEvents).bind
        fun s => s.run none (fun _ => .ok []) lastEvents).map Supervision.reports =
          some [⟨3, 1, true⟩] := by decide +kernel
    obtain ⟨s, hrun, hs⟩ := Option.map_eq_some_iff.1 hstop
    obtain ⟨hstarted, hcancelled⟩ := Prod.mk.inj hs
    rw [hrun] at hend
    obtain ⟨t, hlast, hreports⟩ := Option.map_eq_some_iff.1 hend
    obtain ⟨hsupervised, -, hnone, -⟩ := hruns cancelledEvents s hrun
    exact ⟨s, t, hrun, hlast, hsupervised, hstarted, hnone hcancelled lastEvents t hlast, hreports⟩
  · have hend : ((Supervision.initial threeBins 2).run none (fun _ => .ok []) completeEvents).map
        (fun s => (s.reports, s.schedule.cancelRequested)) = some ([⟨3, 3, false⟩], false) := by
      decide +kernel
    have hlossless : ∀ e ∈ completeEvents, e.isLossless = true := by decide +kernel
    have hroom : ∀ b ∈ threeBins, b.hasRoom = true := by decide +kernel
    obtain ⟨t, hrun, ht⟩ := Option.map_eq_some_iff.1 hend
    obtain ⟨hreports, hnever⟩ := Prod.mk.inj ht
    obtain ⟨-, -, -, -, hcomplete, -⟩ := hruns completeEvents t hrun
    have hmem : ⟨3, 3, false⟩ ∈ t.reports := hreports ▸ List.mem_singleton_self _
    exact ⟨t, hrun, _, hmem, rfl, (hcomplete hroom hlossless (.inl hnever)).2 _ hmem rfl⟩
  · have hanswer : ∀ (number : Nat) (b : Bin) (fetched : Fetched),
        (if number = 2 then none else some (.ok [])) = some fetched → fetched = .ok [] := by
      intro number b fetched h
      split at h
      · contradiction
      · exact (Option.some.inj h).symm
    obtain ⟨events, t, -, hrun, -, -, hreports⟩ := hcomputed (List.cons_ne_nil _ _)
      (fun number _ => if number = 2 then none else some (.ok [])) hanswer true true false
    exact ⟨events, t, hrun, hreports⟩

/-- The cancellation is requested after the scheduler has asked for it, and the only worker stops before the
scheduler asks for workers. -/
def lateEvents : List SupervisionEvent :=
  startTurn ++ [.pass, .of .requestCancel, .of (.act 0 .stop), .of (.join 0), .report]

/-- A backfill of one bin that has been cut off by a cancellation, and a summary that does not speak of it;
and a backfill that may work off more bins at a time than can be counted, which sends no summary. -/
theorem incomplete_summary :
    (∀ e ∈ lateEvents, e.isLossless = true) ∧ Bin.hasRoom ⟨1, 1⟩ = true ∧
      (∃ s, (Supervision.initial [⟨1, 1⟩] 1).run none (fun _ => .ok []) lateEvents = some s ∧
        s.reports = [⟨1, 0, false⟩]) ∧
      Supervision.initial? [⟨1, 1⟩] 2305843009213693952 = none := by
  have hend : ((Supervision.initial [⟨1, 1⟩] 1).run none (fun _ => .ok []) lateEvents).map
      Supervision.reports = some [⟨1, 0, false⟩] := by decide +kernel
  exact ⟨by decide +kernel, by decide +kernel, Option.map_eq_some_iff.1 hend, rfl⟩

end SlotIndex
