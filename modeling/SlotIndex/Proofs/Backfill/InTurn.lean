import SlotIndex.Backfill.Run
import SlotIndex.Proofs.Backfill.Losses

/-!
# A scheduler with one worker at a time

What `runBackfill` computes is the end of a run of the scheduler, also when receivers are gone and when the
backfill is cancelled while the node is asked for a bin. In this run a bin is started only when the worker
of the bin before has been joined.

* `Supervision.Leads`: a run without losses from one state to another.
* `leads_start`, `leads_join`: the turns of the scheduler in which it starts a bin and joins its worker.
* `leads_deliver`, `leads_bin`, `leads_unlisted`, `leads_cut`, `leads_cancel`, `leads_workOff`: the messages
  of a bin, a bin, a bin whose heights cannot be listed, one that is cut off, and bins in turn.
* **`exists_run_runBackfill`**.
-/

namespace SlotIndex

variable {wanted : Option Selection} {node : Bin → Fetched}

theorem workOff_none {accepts : BackfillMessage → Bool} {answer : Nat → Bin → Option Fetched}
    {number : Nat} {b : Bin} {bins : List Bin} (hroom : b.hasRoom = true) (hb : answer number b = none) :
    workOff wanted accepts answer number (b :: bins) = ⟨[], [b], 0, true⟩ := by
  rw [workOff, if_pos hroom, hb]
  rfl

theorem workOff_some {accepts : BackfillMessage → Bool} {answer : Nat → Bin → Option Fetched}
    {number : Nat} {b : Bin} {bins : List Bin} {fetched : Fetched} (hroom : b.hasRoom = true)
    (hb : answer number b = some fetched) : workOff wanted accepts answer number (b :: bins) =
      ⟨(b.process wanted (fun _ => accepts) (some fetched)).1 ++
          (workOff wanted accepts answer (number + 1) bins).messages,
        b :: (workOff wanted accepts answer (number + 1) bins).asked,
        (if (b.process wanted (fun _ => accepts) (some fetched)).2 then 1 else 0) +
          (workOff wanted accepts answer (number + 1) bins).completed,
        (workOff wanted accepts answer (number + 1) bins).cancelled⟩ := by
  rw [workOff, if_pos hroom, hb]
  rfl

theorem workOff_unlisted {accepts : BackfillMessage → Bool} {answer : Nat → Bin → Option Fetched}
    {number : Nat} {b : Bin} {bins : List Bin} (hroom : b.hasRoom = false) :
    workOff wanted accepts answer number (b :: bins) = workOff wanted accepts answer number bins := by
  rw [workOff, hroom, if_neg Bool.false_ne_true]

namespace Supervision

variable {s t u : Supervision}

/-- A run without losses from one state to another. -/
def Leads (wanted : Option Selection) (node : Bin → Fetched) (s t : Supervision) : Prop :=
  ∃ events, (∀ e ∈ events, e.isLossless = true) ∧ s.run wanted node events = some t

theorem Leads.refl : Leads wanted node s s := ⟨[], fun _ he => absurd he List.not_mem_nil, rfl⟩

theorem Leads.head {e : SupervisionEvent} (h : Leads wanted node t u) (he : e.isLossless = true)
    (hstep : s.step wanted node e = some t) : Leads wanted node s u := by
  obtain ⟨events, hevents, hrun⟩ := h
  refine ⟨e :: events, fun e' he' => ?_, ?_⟩
  · rcases List.mem_cons.1 he' with rfl | he'
    · exact he
    · exact hevents e' he'
  · rw [run_cons, hstep]
    exact hrun

theorem Leads.trans (h : Leads wanted node s t) (h' : Leads wanted node t u) :
    Leads wanted node s u := by
  obtain ⟨events, hevents, hrun⟩ := h
  obtain ⟨events', hevents', hrun'⟩ := h'
  refine ⟨events ++ events', fun e he => ?_, ?_⟩
  · exact (List.mem_append.1 he).elim (hevents e) (hevents' e)
  · rw [run_append, hrun]
    exact hrun'

/-- A backfill with one worker and no other, at the beginning of a turn. -/
def alone (s : Supervision) (w : Worker) (sent : List BackfillMessage) (finished : List Bin) :
    Supervision :=
  { s with
    schedule := { s.schedule with workers := [w], sent := sent }
    poll := .cancellation
    finished := finished }

theorem step_act_alone {w : Worker} {action : WorkerAction} {progress : Progress}
    {ms sent : List BackfillMessage} {finished : List Bin}
    (hact : w.step wanted node s.schedule.accepts s.schedule.cancelRequested action =
      some (progress, ms)) :
    (s.alone w sent finished).step wanted node (.of (.act 0 action)) =
      some (s.alone { w with progress } (sent ++ ms) (finished ++ action.finishedBin w.bin)) := by
  have hfinished : (s.alone w sent finished).schedule.finishedBy (.act 0 action) =
      action.finishedBin w.bin := List.append_nil _
  have hstep : (s.alone w sent finished).schedule.step wanted node (.act 0 action) =
      some (s.alone { w with progress } (sent ++ ms) []).schedule := Schedule.step_act_eq rfl hact
  rw [step_of_eq rfl hstep, hfinished, Schedule.startedBy, Schedule.missedBy, List.append_nil,
    List.append_nil]
  rfl

/-- The only worker hands over its messages, up to the first one that nobody takes. -/
theorem leads_deliver (wanted : Option Selection) (node : Bin → Fetched) (s : Supervision) (b : Bin)
    (ms sent : List BackfillMessage) (finished : List Bin) (number : Nat) :
    ∃ finished', Leads wanted node (s.alone ⟨b, .sending ms⟩ sent finished)
      (s.alone ⟨b, .ended (deliver (fun _ => s.schedule.accepts) number ms).2⟩
        (sent ++ (deliver (fun _ => s.schedule.accepts) number ms).1) finished') := by
  induction ms generalizing sent finished number with
  | nil =>
    have hact : Worker.step wanted node s.schedule.accepts s.schedule.cancelRequested
        ⟨b, .sending []⟩ .finish = some (.ended true, []) := rfl
    exact ⟨_, Leads.refl.head rfl (step_act_alone hact)⟩
  | cons m ms ih =>
    cases hm : s.schedule.accepts m with
    | false =>
      have hact : Worker.step wanted node s.schedule.accepts s.schedule.cancelRequested
          ⟨b, .sending (m :: ms)⟩ .send = some (.ended false, []) := by
        simp only [Worker.step, hm, Bool.false_eq_true, if_false]
      have hdeliver : deliver (fun _ => s.schedule.accepts) number (m :: ms) = ([], false) := by
        simp only [deliver, hm, Bool.false_eq_true, if_false]
      rw [hdeliver]
      exact ⟨_, Leads.refl.head rfl (step_act_alone hact)⟩
    | true =>
      have hact : Worker.step wanted node s.schedule.accepts s.schedule.cancelRequested
          ⟨b, .sending (m :: ms)⟩ .send = some (.sending ms, [m]) := by
        simp only [Worker.step, hm, if_true]
      have hdeliver : deliver (fun _ => s.schedule.accepts) number (m :: ms) =
          (m :: (deliver (fun _ => s.schedule.accepts) (number + 1) ms).1,
            (deliver (fun _ => s.schedule.accepts) (number + 1) ms).2) := by
        simp only [deliver, hm, if_true]
      obtain ⟨finished', hrest⟩ := ih (sent ++ [m]) (finished ++ []) (number + 1)
      rw [hdeliver, List.append_cons]
      exact ⟨finished', hrest.head rfl (step_act_alone hact)⟩

/-- A backfill without workers, at the beginning of a turn. -/
def resting (s : Supervision) (pending : List Bin) (completed : Nat) (sent : List BackfillMessage)
    (started finished missed : List Bin) : Supervision :=
  { s with
    schedule := { s.schedule with
      pending := pending
      workers := []
      completed := completed
      sent := sent }
    poll := .cancellation
    started := started
    finished := finished
    missed := missed }

/-- A scheduler that goes on, and no cancellation. -/
structure IsCalm (s : Supervision) : Prop where
  limit : 0 < s.schedule.limit
  notRequested : s.schedule.cancelRequested = false
  notCancelled : s.schedule.cancelled = false
  notReturned : s.returned = false

theorem IsCalm.mustNotice (h : s.IsCalm) : s.schedule.mustNotice = false := by
  rw [Schedule.mustNotice, h.notRequested, Bool.false_and]

variable {b : Bin} {pending : List Bin} {completed : Nat} {sent : List BackfillMessage}
  {started finished missed : List Bin}

/-- The scheduler finds no cancellation and no worker that has ended, and starts a bin. -/
theorem leads_start (wanted : Option Selection) (node : Bin → Fetched) (h : s.IsCalm) :
    Leads wanted node (s.resting (b :: pending) completed sent started finished missed)
      ((s.resting pending completed sent (started ++ [b]) finished missed).alone
        ⟨b, .fetching⟩ sent finished) := by
  let r := s.resting (b :: pending) completed sent started finished missed
  have hfirst : r.step wanted node .pass = some { r with poll := .workers } :=
    step_pass_eq h.notReturned rfl fun _ => h.mustNotice
  have hsecond : ({ r with poll := .workers } : Supervision).step wanted node .pass =
      some { r with poll := .permit } := step_pass_eq h.notReturned rfl Poll.noConfusion
  have hallows : ({ r with poll := .permit } : Supervision).allows .start = true :=
    asked_eq_true h.notReturned rfl
  have hbegin : r.schedule.step wanted node .start = some _ := Schedule.step_start_eq rfl h.limit
  have hstart := step_of_eq hallows hbegin
  rw [Schedule.finishedBy, Schedule.missedBy, List.append_nil, List.append_nil] at hstart
  exact ((Leads.refl.head rfl hstart).head rfl hsecond).head rfl hfirst

/-- The scheduler finds no cancellation and joins the only worker. -/
theorem leads_join (wanted : Option Selection) (node : Bin → Fetched) {c : Bool}
    (hnotice : s.schedule.mustNotice = false) (hr : s.returned = false) :
    Leads wanted node
      ((s.resting pending completed sent started finished missed).alone ⟨b, .ended c⟩ sent finished)
      (s.resting pending (completed + if c then 1 else 0) sent started finished
        (missed ++ if c || s.schedule.cancelled then [] else [b])) := by
  let a := (s.resting pending completed sent started finished missed).alone ⟨b, .ended c⟩ sent finished
  have hpass : a.step wanted node .pass = some { a with poll := .workers } :=
    step_pass_eq hr (Bool.and_false _) fun _ => hnotice
  have hallows : ({ a with poll := .workers } : Supervision).allows (.join 0) = true :=
    asked_eq_true hr rfl
  have hget : a.schedule.workers[0]? = some ⟨b, .ended c⟩ := rfl
  have hend : a.schedule.step wanted node (.join 0) = some _ := Schedule.step_join_eq hget
  have hjoin := step_of_eq hallows hend
  have hmissed : a.schedule.missedBy (.join 0) = if c || s.schedule.cancelled then [] else [b] :=
    Schedule.missedBy_join hget
  rw [hmissed, Schedule.startedBy, Schedule.finishedBy, List.append_nil, List.append_nil] at hjoin
  have hcompleted : (if c then completed + 1 else completed) = completed + if c then 1 else 0 := by
    cases c <;> rfl
  rw [← hcompleted]
  exact (Leads.refl.head rfl hjoin).head rfl hpass

theorem step_fetch_alone : (s.alone ⟨b, .fetching⟩ sent finished).step wanted node
    (.of (.act 0 .fetch)) = some (s.alone ⟨b, b.afterFetch wanted node⟩ sent finished) := by
  have hact : Worker.step wanted node s.schedule.accepts s.schedule.cancelRequested ⟨b, .fetching⟩
      .fetch = some (b.afterFetch wanted node, []) := rfl
  rw [step_act_alone hact, WorkerAction.finishedBin, List.append_nil, List.append_nil]

/-- A bin that is worked off alone. -/
theorem leads_bin (h : s.IsCalm) (hroom : b.hasRoom = true) :
    ∃ finished' missed',
      Leads wanted node (s.resting (b :: pending) completed sent started finished missed)
        (s.resting pending
          (completed + if (b.process wanted (fun _ => s.schedule.accepts) (some (node b))).2 then 1 else 0)
          (sent ++ (b.process wanted (fun _ => s.schedule.accepts) (some (node b))).1)
          (started ++ [b]) finished' missed') := by
  rw [Bin.process]
  have hafter : b.afterFetch wanted node = .sending (b.messages wanted (node b)) := if_pos hroom
  obtain ⟨finished', hsends⟩ := leads_deliver wanted node
    (s.resting pending completed sent (started ++ [b]) finished missed) b (b.messages wanted (node b)) sent
    finished 0
  let r := deliver (fun _ => s.schedule.accepts) 0 (b.messages wanted (node b))
  have hjoin : Leads wanted node
      ((s.resting pending completed (sent ++ r.1) (started ++ [b]) finished' missed).alone ⟨b, .ended r.2⟩
        (sent ++ r.1) finished') _ := leads_join wanted node h.mustNotice h.notReturned
  rw [← hafter] at hsends
  exact ⟨finished', _, (leads_start wanted node h).trans
    ((hsends.trans hjoin).head rfl step_fetch_alone)⟩

/-- A bin whose heights cannot be listed. -/
theorem leads_unlisted (h : s.IsCalm) (hroom : b.hasRoom = false) :
    ∃ missed', Leads wanted node (s.resting (b :: pending) completed sent started finished missed)
      (s.resting pending completed sent (started ++ [b]) finished missed') := by
  have hafter : b.afterFetch wanted node = .ended false := by
    rw [Bin.afterFetch, hroom, if_neg Bool.false_ne_true]
  have hjoin : Leads wanted node
      ((s.resting pending completed sent (started ++ [b]) finished missed).alone ⟨b, .ended false⟩ sent
        finished) _ := leads_join wanted node h.mustNotice h.notReturned
  rw [← hafter] at hjoin
  exact ⟨_, (leads_start wanted node h).trans (hjoin.head rfl step_fetch_alone)⟩

/-- The only worker is cut off by a cancellation before the node has answered. -/
theorem leads_cut (h : s.IsCalm) :
    ∃ t, Leads wanted node (s.alone ⟨b, .fetching⟩ sent finished) t ∧ t.schedule.sent = sent ∧
      t.started = s.started ∧
      t.reports = s.reports ++ [⟨s.schedule.total, s.schedule.completed, true⟩] := by
  let requested : Supervision :=
    { s with schedule := { s.schedule with cancelRequested := true } }
  let noticed : Supervision :=
    { s with schedule := { s.schedule with pending := [], cancelRequested := true, cancelled := true } }
  have hrequest : (s.alone ⟨b, .fetching⟩ sent finished).step wanted node (.of .requestCancel) =
      some (requested.alone ⟨b, .fetching⟩ sent finished) := by
    rw [step_of_eq rfl rfl, Schedule.startedBy, Schedule.finishedBy, Schedule.missedBy, List.append_nil,
      List.append_nil, List.append_nil]
    rfl
  have hstop : (requested.alone ⟨b, .fetching⟩ sent finished).step wanted node (.of (.act 0 .stop)) =
      some (requested.alone ⟨b, .ended false⟩ sent finished) := by
    rw [step_act_alone rfl, WorkerAction.finishedBin, List.append_nil, List.append_nil]
  have hnotice : (requested.alone ⟨b, .ended false⟩ sent finished).step wanted node
      (.of .noticeCancel) = some (noticed.alone ⟨b, .ended false⟩ sent finished) := by
    have hallows : (requested.alone ⟨b, .ended false⟩ sent finished).allows .noticeCancel = true :=
      asked_eq_true h.notReturned rfl
    have hover : (requested.alone ⟨b, .ended false⟩ sent finished).schedule.isOver = false :=
      Bool.and_false _
    rw [step_of_eq hallows (Schedule.step_noticeCancel_eq rfl h.notCancelled hover), Schedule.startedBy,
      Schedule.finishedBy, Schedule.missedBy, List.append_nil, List.append_nil, List.append_nil]
    rfl
  have hjoin : Leads wanted node
      ((noticed.resting [] s.schedule.completed sent s.started finished s.missed).alone
        ⟨b, .ended false⟩ sent finished) _ := leads_join wanted node rfl h.notReturned
  have hreport : (noticed.resting [] s.schedule.completed sent s.started finished
      (s.missed ++ [])).step wanted node .report = some _ := step_report_eq h.notReturned rfl rfl
  have hend := (hjoin.trans (Leads.refl.head rfl hreport)).head rfl hnotice
  exact ⟨_, (hend.head rfl hstop).head rfl hrequest, rfl, rfl, rfl⟩

/-- A bin whose answer is cut off by a cancellation. -/
theorem leads_cancel (h : s.IsCalm) :
    ∃ t, Leads wanted node (s.resting (b :: pending) completed sent started finished missed) t ∧
      t.schedule.sent = sent ∧ t.started = started ++ [b] ∧
      t.reports = s.reports ++ [⟨s.schedule.total, completed, true⟩] := by
  have hcalm : (s.resting pending completed sent (started ++ [b]) finished missed).IsCalm :=
    ⟨h.limit, h.notRequested, h.notCancelled, h.notReturned⟩
  obtain ⟨t, hcut, hrest⟩ := leads_cut hcalm
  exact ⟨t, (leads_start wanted node h).trans hcut, hrest⟩

/-- Bins that are worked off one after the other. The node is asked for those that are started and whose
heights can be listed. -/
theorem leads_workOff (wanted : Option Selection) (h : s.IsCalm) {answer : Nat → Bin → Option Fetched}
    (hanswer : ∀ number b fetched, answer number b = some fetched → fetched = node b) (number : Nat)
    (bins : List Bin) (completed : Nat) (sent : List BackfillMessage)
    (started finished missed : List Bin) :
    ∃ t, Leads wanted node (s.resting bins completed sent started finished missed) t ∧
      t.schedule.sent = sent ++ (workOff wanted s.schedule.accepts answer number bins).messages ∧
      t.started.filter Bin.hasRoom =
        started.filter Bin.hasRoom ++ (workOff wanted s.schedule.accepts answer number bins).asked ∧
      t.reports = s.reports ++ [⟨s.schedule.total,
        completed + (workOff wanted s.schedule.accepts answer number bins).completed,
        (workOff wanted s.schedule.accepts answer number bins).cancelled⟩] := by
  induction bins generalizing number completed sent started finished missed with
  | nil =>
    have hreport : (s.resting [] completed sent started finished missed).step wanted node .report =
        some _ := step_report_eq h.notReturned rfl rfl
    refine ⟨_, Leads.refl.head rfl hreport, (List.append_nil _).symm, (List.append_nil _).symm, ?_⟩
    rw [workOff, ← h.notCancelled]
    rfl
  | cons b bins ih =>
    cases hroom : b.hasRoom with
    | false =>
      rw [workOff_unlisted hroom]
      obtain ⟨missed', hbin⟩ := leads_unlisted h hroom
      obtain ⟨t, hleads, hsent, hstarted, hreports⟩ := ih number completed sent (started ++ [b]) finished
        missed'
      rw [List.filter_append, List.filter_cons_of_neg (Bool.eq_false_iff.1 hroom), List.filter_nil,
        List.append_nil] at hstarted
      exact ⟨t, hbin.trans hleads, hsent, hstarted, hreports⟩
    | true =>
      have hfilter : ∀ l : List Bin, (l ++ [b]).filter Bin.hasRoom = l.filter Bin.hasRoom ++ [b] := by
        intro l
        rw [List.filter_append, List.filter_cons_of_pos hroom, List.filter_nil]
      cases hb : answer number b with
      | none =>
        rw [workOff_none hroom hb, List.append_nil]
        obtain ⟨t, hleads, hsent, hstarted, hreports⟩ := leads_cancel h
        exact ⟨t, hleads, hsent, by rw [hstarted, hfilter], hreports⟩
      | some fetched =>
        obtain rfl := hanswer number b fetched hb
        rw [workOff_some hroom hb, ← List.append_assoc, List.append_cons, ← hfilter, ← Nat.add_assoc]
        obtain ⟨finished', missed', hbin⟩ := leads_bin h hroom
        obtain ⟨t, hleads, hrest⟩ := ih (number + 1) _ _ _ finished' missed'
        exact ⟨t, hbin.trans hleads, hrest⟩

end Supervision

/-- Which messages still have a receiver. -/
def receivers (diffsOpen errorsOpen : Bool) : BackfillMessage → Bool
  | .ok _ => diffsOpen
  | .error _ => errorsOpen

/-- **What is computed is the end of a run**, also when receivers are gone and when the backfill is
cancelled, before it starts or while the node is asked. -/
theorem exists_run_runBackfill (wanted : Option Selection) {node : Bin → Fetched} {bins : List Bin}
    (hbins : bins ≠ []) (maxInFlight : Nat) {answer : Nat → Bin → Option Fetched}
    (hanswer : ∀ number b fetched, answer number b = some fetched → fetched = node b)
    (diffsOpen errorsOpen cancelled : Bool) :
    ∃ events t, (diffsOpen = true → errorsOpen = true → ∀ e ∈ events, e.isLossless = true) ∧
      (Supervision.initial bins maxInFlight).run wanted node events = some t ∧
      t.schedule.sent =
        (runBackfill wanted (receivers diffsOpen errorsOpen) answer cancelled bins).messages ∧
      t.started.filter Bin.hasRoom =
        (runBackfill wanted (receivers diffsOpen errorsOpen) answer cancelled bins).asked ∧
      t.reports =
        [(runBackfill wanted (receivers diffsOpen errorsOpen) answer cancelled bins).summary bins] := by
  let base : Supervision :=
    { Supervision.initial bins maxInFlight with
      schedule := { Schedule.initial bins maxInFlight with
        diffsOpen := diffsOpen
        errorsOpen := errorsOpen } }
  have haccepts : base.schedule.accepts = receivers diffsOpen errorsOpen := by
    funext m
    cases m <;> rfl
  have hclosing : ∃ events, (diffsOpen = true → errorsOpen = true → ∀ e ∈ events, e.isLossless = true) ∧
      (Supervision.initial bins maxInFlight).run wanted node events = some base := by
    cases diffsOpen with
    | true =>
      cases errorsOpen with
      | true => exact ⟨[], fun _ _ e he => absurd he List.not_mem_nil, rfl⟩
      | false => exact ⟨[.of .closeErrors], fun _ h => absurd h Bool.false_ne_true, rfl⟩
    | false =>
      cases errorsOpen with
      | true => exact ⟨[.of .closeDiffs], fun h => absurd h Bool.false_ne_true, rfl⟩
      | false => exact ⟨[.of .closeDiffs, .of .closeErrors], fun h => absurd h Bool.false_ne_true, rfl⟩
  obtain ⟨closing, hlossless, hclosed⟩ := hclosing
  suffices hleads : ∃ t, Supervision.Leads wanted node base t ∧
      t.schedule.sent =
        (runBackfill wanted (receivers diffsOpen errorsOpen) answer cancelled bins).messages ∧
      t.started.filter Bin.hasRoom =
        (runBackfill wanted (receivers diffsOpen errorsOpen) answer cancelled bins).asked ∧
      t.reports =
        [(runBackfill wanted (receivers diffsOpen errorsOpen) answer cancelled bins).summary bins] by
    obtain ⟨t, ⟨events, hevents, hrun⟩, hrest⟩ := hleads
    refine ⟨closing ++ events, t, fun hd he e hmem => ?_, ?_, hrest⟩
    · exact (List.mem_append.1 hmem).elim (hlossless hd he e) (hevents e)
    · rw [Supervision.run_append, hclosed]
      exact hrun
  cases cancelled with
  | false =>
    have hcalm : base.IsCalm := ⟨Schedule.limit_initial_pos bins maxInFlight, rfl, rfl, rfl⟩
    have hwork := Supervision.leads_workOff wanted hcalm hanswer 1 bins 0 [] [] [] []
    rw [haccepts, Nat.zero_add] at hwork
    exact hwork
  | true =>
    let requested : Supervision :=
      { base with schedule := { base.schedule with cancelRequested := true } }
    have hover : requested.schedule.isOver = false := by
      cases bins with
      | nil => contradiction
      | cons b bins => rfl
    have hrequest : base.step wanted node (.of .requestCancel) = some requested := rfl
    have hnotice : requested.step wanted node (.of .noticeCancel) = some _ :=
      Supervision.step_of_eq rfl (Schedule.step_noticeCancel_eq rfl rfl hover)
    refine ⟨_, ((Supervision.Leads.refl.head rfl
      (Supervision.step_report_eq rfl rfl rfl)).head rfl hnotice).head rfl hrequest, rfl, rfl, rfl⟩

end SlotIndex
