import Mathlib.Data.List.Nodup
import SlotIndex.Proofs.Backfill.Undisturbed

/-!
# Whose messages they are

A worker hands over the messages of its own bin. A run is read once more, with the bin of the worker
beside each message: in an undisturbed run every bin hands over its own messages, in their order,
however its worker takes turns with the others.

* `Schedule.handedOver`, `Schedule.trace`: the messages of an event and of a run, with their bins.
* `ofBin`: the messages of one bin.
* `Schedule.outstanding`: the messages that a bin is still to hand over.
* `sent_run`: without the bins the trace is what has been sent.
* `Calm.outstanding_step`, `Calm.outstanding_run`: what a step and a run take from it.
* **`ofBin_trace`**, `mem_of_mem_trace`: the messages of each bin in a run that is over.
-/

namespace SlotIndex

/-- The messages of a bin among messages with their bins. -/
def ofBin (b : Bin) (trace : List (Bin × BackfillMessage)) : List BackfillMessage :=
  (trace.filter fun e => e.1 = b).map Prod.snd

theorem ofBin_append (b : Bin) (front back : List (Bin × BackfillMessage)) :
    ofBin b (front ++ back) = ofBin b front ++ ofBin b back := by
  simp [ofBin]

theorem ofBin_own (b : Bin) (ms : List BackfillMessage) :
    ofBin b (ms.map fun m => (b, m)) = ms := by
  simp [ofBin, List.filter_map, Function.comp_def]

theorem ofBin_foreign {b c : Bin} (h : c ≠ b) (ms : List BackfillMessage) :
    ofBin b (ms.map fun m => (c, m)) = [] := by
  simp [ofBin, List.filter_map, Function.comp_def, h]

namespace Schedule

variable (wanted : Option Selection) (node : Bin → Fetched)

/-- The messages that are handed over in an event, with the bin of the worker. -/
def handedOver (s : Schedule) : ScheduleEvent → List (Bin × BackfillMessage)
  | .act index action =>
    match s.workers[index]? with
    | none => []
    | some w =>
      match w.step wanted node s.accepts s.cancelRequested action with
      | none => []
      | some (_, sent) => sent.map fun m => (w.bin, m)
  | .start | .join _ | .requestCancel | .noticeCancel | .closeDiffs | .closeErrors => []

/-- The messages that are handed over in a run, with the bins of their workers. -/
def trace (s : Schedule) : List ScheduleEvent → List (Bin × BackfillMessage)
  | [] => []
  | e :: events =>
    handedOver wanted node s e ++
      match s.step wanted node e with
      | none => []
      | some t => trace t events

/-- The bins that are being worked off or are to be started. -/
def openBins (s : Schedule) : List Bin := s.workers.map Worker.bin ++ s.pending

/-- The messages that a bin is still to hand over. -/
def outstanding (s : Schedule) (b : Bin) : List BackfillMessage :=
  (s.workers.filter fun w => w.bin = b).flatMap (Worker.remaining wanted node) ++
    (s.pending.filter fun c => c = b).flatMap (Bin.yield wanted node)

variable {wanted node} {s t : Schedule}

theorem trace_cons {e : ScheduleEvent} (h : s.step wanted node e = some t)
    (events : List ScheduleEvent) :
    s.trace wanted node (e :: events) = s.handedOver wanted node e ++ t.trace wanted node events := by
  rw [trace, h]

/-! ## What has been sent -/

theorem sent_step {e : ScheduleEvent} (h : s.step wanted node e = some t) :
    t.sent = s.sent ++ (s.handedOver wanted node e).map Prod.snd := by
  cases e with
  | start =>
    obtain ⟨bin, rest, -, -, rfl⟩ := step_start h
    simp [handedOver]
  | act index action =>
    obtain ⟨front, w, back, progress, sent, hget, -, hstep, rfl⟩ := step_act h
    simp [handedOver, hget, hstep, Function.comp_def]
  | join index =>
    obtain ⟨front, bin, completed, back, -, -, rfl⟩ := step_join h
    simp [handedOver]
  | noticeCancel =>
    simp only [step] at h
    split at h
    · cases h
      simp [handedOver]
    · contradiction
  | requestCancel | closeDiffs | closeErrors =>
    cases h
    simp [handedOver]

/-- **The trace of a run** is what has been sent in it, with the bins. -/
theorem sent_run {events : List ScheduleEvent} (h : s.run wanted node events = some t) :
    t.sent = s.sent ++ (s.trace wanted node events).map Prod.snd := by
  induction events generalizing s with
  | nil =>
    cases h
    simp [trace]
  | cons e events ih =>
    obtain ⟨u, hstep, hrun⟩ := Option.bind_eq_some_iff.1 h
    rw [ih hrun, sent_step hstep, trace_cons hstep, List.map_append, List.append_assoc]

/-! ## What is still to come -/

theorem outstanding_initial {bins : List Bin} (hbins : bins.Nodup) (maxInFlight : Nat) (b : Bin) :
    (initial bins maxInFlight).outstanding wanted node b =
      if b ∈ bins then b.yield wanted node else [] := by
  have hfilter := List.filter_eq (l := bins) b
  split
  · next hb =>
    rw [List.count_eq_one_of_mem hbins hb, List.replicate_one] at hfilter
    simp [outstanding, initial, hfilter]
  · next hb =>
    rw [List.count_eq_zero_of_not_mem hb, List.replicate_zero] at hfilter
    simp [outstanding, initial, hfilter]

theorem outstanding_of_isOver (h : s.isOver = true) (b : Bin) :
    s.outstanding wanted node b = [] := by
  simp only [isOver, Bool.and_eq_true, List.isEmpty_iff] at h
  simp [outstanding, h.1, h.2]

theorem outstanding_start (hopen : s.openBins.Nodup) (h : s.step wanted node .start = some t) :
    t.openBins.Nodup ∧
      ∀ b, s.outstanding wanted node b = t.outstanding wanted node b := by
  obtain ⟨bin, rest, hp, -, rfl⟩ := step_start h
  constructor
  · simpa [openBins, hp] using hopen
  · intro b
    -- the bin moves from the front of the pending bins behind the last worker
    by_cases hb : bin = b
    · simp [outstanding, hp, hb, Worker.remaining]
    · simp [outstanding, hp, hb]

theorem outstanding_join (hopen : s.openBins.Nodup) {index : Nat}
    (h : s.step wanted node (.join index) = some t) :
    t.openBins.Nodup ∧
      ∀ b, s.outstanding wanted node b = t.outstanding wanted node b := by
  obtain ⟨front, bin, completed, back, -, hw, rfl⟩ := step_join h
  constructor
  · rw [openBins, hw, List.map_append, List.map_cons] at hopen
    rw [openBins, List.map_append]
    exact hopen.sublist (((List.sublist_cons_self _ _).append_left _).append_right _)
  · intro b
    by_cases hb : bin = b
    · simp [outstanding, hw, hb, Worker.remaining]
    · simp [outstanding, hw, hb]

/-- A worker that acts hands over the first of the messages that are still to come from its bin: no
worker before it is at work on the same bin. -/
theorem outstanding_act (hopen : s.openBins.Nodup) (hworkers : ∀ w ∈ s.workers, w.IsCalm)
    (haccepts : s.accepts = fun _ => true) (hcancel : s.cancelRequested = false) {index : Nat} {action : WorkerAction}
    (hcalm : action ≠ .breakDown) (h : s.step wanted node (.act index action) = some t) :
    t.openBins.Nodup ∧ ∀ b, s.outstanding wanted node b =
      ofBin b (s.handedOver wanted node (.act index action)) ++ t.outstanding wanted node b := by
  obtain ⟨front, w, back, progress, sent, hget, hw, hstep, rfl⟩ := step_act h
  have hhanded : s.handedOver wanted node (.act index action) = sent.map fun m => (w.bin, m) := by
    simp only [handedOver, hget, hstep]
  rw [haccepts, hcancel] at hstep
  have hmem : w ∈ s.workers := hw ▸ List.mem_append_right _ List.mem_cons_self
  obtain ⟨hremaining, -, -⟩ := Worker.step_calm (hworkers w hmem) hcalm hstep
  have hfront : ∀ v ∈ front, v.bin ≠ w.bin := by
    rw [openBins, hw, List.map_append, List.map_cons, List.append_assoc] at hopen
    intro v hv heq
    have hdisjoint := (List.nodup_append.1 hopen).2.2 v.bin (List.mem_map_of_mem hv)
    exact hdisjoint w.bin List.mem_cons_self heq
  constructor
  · simpa [openBins, hw] using hopen
  · intro b
    rw [hhanded]
    by_cases hb : w.bin = b
    · have hnone : (front.filter fun v => v.bin = b) = [] :=
        List.filter_eq_nil_iff.2 fun v hv => by simpa [← hb] using hfront v hv
      rw [← hb, ofBin_own, hb]
      simp [outstanding, hw, hb, hnone, hremaining]
    · rw [ofBin_foreign hb, List.nil_append]
      simp [outstanding, hw, hb]

namespace Calm

variable {bins : List Bin}

/-- **An event** takes the messages that are handed over in it from those that their bin is still to
hand over, and nothing from the other bins. -/
theorem outstanding_step (c : Calm wanted node bins s) (hopen : s.openBins.Nodup)
    {e : ScheduleEvent} (he : e.isCalm = true) (h : s.step wanted node e = some t) :
    t.openBins.Nodup ∧ ∀ b, s.outstanding wanted node b =
      ofBin b (s.handedOver wanted node e) ++ t.outstanding wanted node b := by
  cases e with
  | start => exact outstanding_start hopen h
  | act index action =>
    refine outstanding_act hopen c.workers c.accepts_eq c.notRequested (fun ha => ?_) h
    subst ha
    contradiction
  | join index => exact outstanding_join hopen h
  | noticeCancel =>
    simp only [Schedule.step, c.notRequested] at h
    contradiction
  | requestCancel | closeDiffs | closeErrors => contradiction

/-- **A run** takes the messages of its trace from those that their bins are still to hand over. -/
theorem outstanding_run (c : Calm wanted node bins s) (hopen : s.openBins.Nodup)
    {events : List ScheduleEvent} (he : ∀ e ∈ events, e.isCalm = true)
    (h : s.run wanted node events = some t) (b : Bin) :
    s.outstanding wanted node b =
      ofBin b (s.trace wanted node events) ++ t.outstanding wanted node b := by
  induction events generalizing s with
  | nil =>
    cases h
    rfl
  | cons e events ih =>
    obtain ⟨u, hstep, hrun⟩ := Option.bind_eq_some_iff.1 h
    have hcalm : e.isCalm = true := he e List.mem_cons_self
    obtain ⟨hu, hout⟩ := c.outstanding_step hopen hcalm hstep
    have hrest := ih (c.step hcalm hstep).1 hu (fun e h => he e (List.mem_cons_of_mem _ h)) hrun
    rw [hout b, hrest, trace_cons hstep, ofBin_append, List.append_assoc]

end Calm

/-- **Each bin hands over its own messages**, in their order, in an undisturbed run that is over. -/
theorem ofBin_trace {bins : List Bin} (hbins : bins.Nodup) {maxInFlight : Nat}
    {events : List ScheduleEvent} (he : ∀ e ∈ events, e.isCalm = true)
    (h : (initial bins maxInFlight).run wanted node events = some t) (hover : t.isOver = true)
    (b : Bin) :
    ofBin b ((initial bins maxInFlight).trace wanted node events) =
      if b ∈ bins then b.yield wanted node else [] := by
  have hcalm : Calm wanted node bins (initial bins maxInFlight) := .initial bins maxInFlight
  have hopen : (initial bins maxInFlight).openBins.Nodup := by simpa [openBins, initial] using hbins
  have hout := hcalm.outstanding_run hopen he h b
  rw [outstanding_initial hbins maxInFlight b, outstanding_of_isOver hover, List.append_nil] at hout
  exact hout.symm

/-- Messages are handed over by those bins of the run whose heights can be listed, and by no others. -/
theorem mem_of_mem_trace {bins : List Bin} (hbins : bins.Nodup) {maxInFlight : Nat}
    {events : List ScheduleEvent} (he : ∀ e ∈ events, e.isCalm = true)
    (h : (initial bins maxInFlight).run wanted node events = some t) (hover : t.isOver = true)
    {e : Bin × BackfillMessage} (hmem : e ∈ (initial bins maxInFlight).trace wanted node events) :
    e.1 ∈ bins.filter Bin.hasRoom := by
  have hown : e.2 ∈ ofBin e.1 ((initial bins maxInFlight).trace wanted node events) :=
    List.mem_map_of_mem (List.mem_filter.2 ⟨hmem, decide_eq_true rfl⟩)
  rw [ofBin_trace hbins he h hover e.1, Bin.yield] at hown
  split at hown
  next hb =>
    split at hown
    next hroom => exact List.mem_filter.2 ⟨hb, hroom⟩
    next => contradiction
  next => contradiction

end Schedule

end SlotIndex
