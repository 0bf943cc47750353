import SlotIndex.Backfill.Run
import SlotIndex.Proofs.Backfill.Undisturbed

/-!
# Bins one after the other

What `runBackfill` computes when nothing disturbs it is one of the runs of the schedule: the one that
starts a bin only when the worker of the bin before has been joined. Of a bin whose heights cannot be listed
nothing comes but its worker, which breaks down.

* `workOff_undisturbed`: what is computed.
* `binEvents`, `run_bins`: the run.
* **`runBackfill_is_run`**.
-/

namespace SlotIndex

variable (wanted : Option Selection) (node : Bin → Fetched)

theorem deliver_all {α : Type} (sent : Nat) (ms : List α) :
    deliver (fun _ _ => true) sent ms = (ms, true) := by
  induction ms generalizing sent with
  | nil => rfl
  | cons m ms ih => simp [deliver, ih]

theorem workOff_undisturbed (number : Nat) (bins : List Bin) :
    workOff wanted (fun _ => true) (fun _ b => some (node b)) number bins =
      ⟨bins.flatMap (Bin.yield wanted node), bins.filter Bin.hasRoom, bins.countP Bin.hasRoom, false⟩ := by
  induction bins generalizing number with
  | nil => rfl
  | cons b bins ih =>
    cases hroom : b.hasRoom with
    | false => simp [workOff, ih, Bin.yield, hroom]
    | true => simp [workOff, ih, Bin.yield, Bin.process, deliver_all, hroom, Nat.add_comm]

namespace Schedule

/-- The events of a bin that is worked off alone. -/
def binEvents (b : Bin) : List ScheduleEvent :=
  if b.hasRoom then
    .start :: .act 0 .fetch ::
      (List.replicate (b.messages wanted (node b)).length (.act 0 .send) ++ [.act 0 .finish, .join 0])
  else [.start, .act 0 .fetch, .join 0]

theorem isCalm_binEvents (b : Bin) : ∀ e ∈ binEvents wanted node b, e.isCalm = true := by
  intro e he
  rw [binEvents] at he
  split at he
  · simp only [List.mem_cons, List.mem_append, List.mem_replicate, List.not_mem_nil, or_false] at he
    rcases he with rfl | rfl | ⟨-, rfl⟩ | rfl | rfl <;> rfl
  · simp only [List.mem_cons, List.not_mem_nil, or_false] at he
    rcases he with rfl | rfl | rfl <;> rfl

variable {wanted node} {s : Schedule}

theorem run_sends {b : Bin} {ms : List BackfillMessage} (hw : s.workers = [⟨b, .sending ms⟩])
    (hd : s.diffsOpen = true) (he : s.errorsOpen = true) :
    s.run wanted node (List.replicate ms.length (.act 0 .send)) =
      some { s with workers := [⟨b, .sending []⟩], sent := s.sent ++ ms } := by
  induction ms generalizing s with
  | nil =>
    rw [List.append_nil, ← hw]
    rfl
  | cons m ms ih =>
    have haccepts : s.accepts m = true := by cases m <;> assumption
    have hstep : Worker.step wanted node s.accepts s.cancelRequested ⟨b, .sending (m :: ms)⟩ .send =
        some (.sending ms, [m]) := by
      simp only [Worker.step, if_pos haccepts]
    rw [List.length_cons, List.replicate_succ, run_cons, step_act_eq (by rw [hw]; rfl) hstep,
      Option.bind_some]
    refine (ih ?_ ?_ ?_).trans ?_
    · rw [hw]
      rfl
    · exact hd
    · exact he
    · simp

theorem run_bin {b : Bin} {rest : List Bin} (hw : s.workers = []) (hp : s.pending = b :: rest)
    (hl : 0 < s.limit) (hd : s.diffsOpen = true) (he : s.errorsOpen = true) :
    s.run wanted node (binEvents wanted node b) =
      some { s with
        pending := rest
        completed := s.completed + if b.hasRoom then 1 else 0
        sent := s.sent ++ b.yield wanted node } := by
  have hlt : s.running < s.limit := by
    rw [running, hw]
    exact hl
  let started : Schedule := { s with pending := rest, workers := [⟨b, .fetching⟩] }
  let answered : Schedule := { s with pending := rest, workers := [⟨b, b.afterFetch wanted node⟩] }
  have hstart : s.step wanted node .start = some started := by
    rw [step_start_eq hp hlt, hw, List.nil_append]
  have hfetch : started.step wanted node (.act 0 .fetch) = some answered := by
    rw [step_act_eq rfl rfl, List.append_nil]
    rfl
  cases hroom : b.hasRoom with
  | true =>
    let ms := b.messages wanted (node b)
    have hafter : b.afterFetch wanted node = .sending ms := by rw [Bin.afterFetch, hroom, if_pos rfl]
    have hsends : answered.run wanted node (List.replicate ms.length (.act 0 .send)) =
        some { answered with workers := [⟨b, .sending []⟩], sent := s.sent ++ ms } :=
      run_sends (by rw [← hafter]) hd he
    rw [binEvents, hroom, if_pos rfl, run_cons, hstart, Option.bind_some, run_cons, hfetch,
      Option.bind_some, run_append, hsends, Option.bind_some, run_cons, step_act_eq rfl rfl,
      Option.bind_some, run_cons, step_join_eq rfl, Option.bind_some, run, hw, List.append_nil,
      Bin.yield, hroom, if_pos rfl]
    rfl
  | false =>
    have hafter : b.afterFetch wanted node = .ended false := by
      rw [Bin.afterFetch, hroom, if_neg Bool.false_ne_true]
    have hjoin : answered.step wanted node (.join 0) = some { s with pending := rest } := by
      rw [step_join_eq (by rw [← hafter]; rfl), hw]
      rfl
    rw [binEvents, hroom, if_neg Bool.false_ne_true, run_cons, hstart, Option.bind_some, run_cons,
      hfetch, Option.bind_some, run_cons, hjoin, Option.bind_some, run, Bin.yield, hroom,
      if_neg Bool.false_ne_true, if_neg Bool.false_ne_true, List.append_nil]
    rfl

/-- Bins that are worked off one after the other. -/
theorem run_bins {bins : List Bin} (hw : s.workers = []) (hp : s.pending = bins)
    (hl : 0 < s.limit) (hd : s.diffsOpen = true) (he : s.errorsOpen = true) :
    s.run wanted node (bins.flatMap (binEvents wanted node)) =
      some { s with
        pending := []
        completed := s.completed + bins.countP Bin.hasRoom
        sent := s.sent ++ bins.flatMap (Bin.yield wanted node) } := by
  induction bins generalizing s with
  | nil =>
    rw [List.flatMap_nil, List.flatMap_nil, List.append_nil, List.countP_nil, Nat.add_zero, run, ← hp]
  | cons b bins ih =>
    rw [List.flatMap_cons, run_append, run_bin hw hp hl hd he, Option.bind_some]
    refine (ih ?_ ?_ ?_ ?_ ?_).trans ?_
    · exact hw
    · rfl
    · exact hl
    · exact hd
    · exact he
    · simp [List.countP_cons, Nat.add_left_comm, Nat.add_comm]

end Schedule

/-- **What is computed is the end of a run**, with as many workers at a time as one likes. -/
theorem runBackfill_is_run (bins : List Bin) (maxInFlight : Nat) :
    ∃ events t, (∀ e ∈ events, e.isCalm = true) ∧
      (Schedule.initial bins maxInFlight).run wanted node events = some t ∧
      t.sent = (runBackfill wanted (fun _ => true) (fun _ b => some (node b)) false bins).messages ∧
      t.summary? = some
        ((runBackfill wanted (fun _ => true) (fun _ b => some (node b)) false bins).summary bins) := by
  have hl := Schedule.limit_initial_pos bins maxInFlight
  refine ⟨_, _, fun e he => ?_, Schedule.run_bins rfl rfl hl rfl rfl, ?_, ?_⟩
  · obtain ⟨b, -, hb⟩ := List.mem_flatMap.1 he
    exact Schedule.isCalm_binEvents wanted node b e hb
  · simp [runBackfill, workOff_undisturbed, Schedule.initial]
  · simp [runBackfill, workOff_undisturbed, Schedule.initial, Schedule.summary?, Schedule.isOver,
      BackfillRun.summary]

end SlotIndex
