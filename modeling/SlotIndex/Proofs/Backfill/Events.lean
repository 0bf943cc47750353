import SlotIndex.Backfill.Schedule

/-!
# Events of a schedule

What a schedule looks like before and after each kind of event, and how runs are put together.

* `exists_split`: a list around one of its members.
* `initial?_eq_some`, `isOver_of_summary?`: when a schedule begins and when it is over.
* `step_start_eq`, `step_act_eq`, `step_join_eq`: when these events can happen.
* `step_start`, `step_act`, `step_join`: what has happened in them.
* `run_append`: a run in two parts.
-/

namespace SlotIndex

/-- A list around the member at an index. -/
theorem exists_split {α : Type} {l : List α} {i : Nat} {a : α} (h : l[i]? = some a) :
    ∃ front back, l = front ++ a :: back ∧ (∀ b, l.set i b = front ++ b :: back) ∧
      l.eraseIdx i = front ++ back := by
  induction l generalizing i with
  | nil => simp at h
  | cons x l ih =>
    cases i with
    | zero =>
      obtain rfl : x = a := by simpa using h
      exact ⟨[], l, rfl, fun _ => rfl, rfl⟩
    | succ i =>
      obtain ⟨front, back, hl, hset, herase⟩ := ih (by simpa using h)
      refine ⟨x :: front, back, ?_, fun b => ?_, ?_⟩
      · rw [hl, List.cons_append]
      · rw [List.set_cons_succ, hset, List.cons_append]
      · rw [List.eraseIdx_cons_succ, herase, List.cons_append]

namespace Schedule

variable {wanted : Option Selection} {node : Bin → Fetched} {s t : Schedule}

theorem initial?_eq_some {bins : List Bin} {maxInFlight : Nat} (h : initial? bins maxInFlight = some s) :
    max 1 maxInFlight ≤ maxPermits ∧ s = initial bins maxInFlight := by
  rw [initial?] at h
  split at h
  next hle => exact ⟨hle, (Option.some.inj h).symm⟩
  next => contradiction

/-- A schedule with a summary is over. -/
theorem isOver_of_summary? {summary : Summary} (h : s.summary? = some summary) : s.isOver = true := by
  rw [summary?] at h
  split at h
  · assumption
  · contradiction

theorem step_start_eq {bin : Bin} {rest : List Bin} (hp : s.pending = bin :: rest)
    (hlt : s.running < s.limit) : s.step wanted node .start =
      some { s with pending := rest, workers := s.workers ++ [⟨bin, .fetching⟩] } := by
  simp only [step, hp, if_pos hlt]

theorem step_act_eq {index : Nat} {w : Worker} {action : WorkerAction} {progress : Progress}
    {sent : List BackfillMessage} (hw : s.workers[index]? = some w)
    (hstep : w.step wanted node s.accepts s.cancelRequested action = some (progress, sent)) :
    s.step wanted node (.act index action) =
      some { s with workers := s.workers.set index { w with progress }, sent := s.sent ++ sent } := by
  simp only [step, hw, hstep]

theorem step_join_eq {index : Nat} {bin : Bin} {completed : Bool}
    (hw : s.workers[index]? = some ⟨bin, .ended completed⟩) :
    s.step wanted node (.join index) =
      some { s with
        workers := s.workers.eraseIdx index
        completed := if completed then s.completed + 1 else s.completed } := by
  simp only [step, hw]

theorem step_start (h : s.step wanted node .start = some t) :
    ∃ bin rest, s.pending = bin :: rest ∧ s.running < s.limit ∧
      t = { s with pending := rest, workers := s.workers ++ [⟨bin, .fetching⟩] } := by
  simp only [step] at h
  split at h
  · contradiction
  next bin rest hp =>
  split at h
  · next hlt =>
    cases h
    exact ⟨bin, rest, hp, hlt, rfl⟩
  · contradiction

theorem step_act {index : Nat} {action : WorkerAction}
    (h : s.step wanted node (.act index action) = some t) :
    ∃ front w back progress sent, s.workers[index]? = some w ∧ s.workers = front ++ w :: back ∧
      w.step wanted node s.accepts s.cancelRequested action = some (progress, sent) ∧
      t = { s with
        workers := front ++ { w with progress } :: back
        sent := s.sent ++ sent } := by
  simp only [step] at h
  split at h
  · contradiction
  next w hw =>
  split at h
  · contradiction
  next progress sent hstep =>
  cases h
  obtain ⟨front, back, hl, hset, -⟩ := exists_split hw
  exact ⟨front, w, back, progress, sent, hw, hl, hstep, by rw [hset]⟩

theorem step_join {index : Nat} (h : s.step wanted node (.join index) = some t) :
    ∃ front bin completed back, s.workers[index]? = some ⟨bin, .ended completed⟩ ∧
      s.workers = front ++ ⟨bin, .ended completed⟩ :: back ∧
      t = { s with
        workers := front ++ back
        completed := if completed then s.completed + 1 else s.completed } := by
  simp only [step] at h
  split at h
  · next bin completed hw =>
    cases h
    obtain ⟨front, back, hl, -, herase⟩ := exists_split hw
    exact ⟨front, bin, completed, back, hw, hl, by rw [herase]⟩
  · contradiction
  · contradiction
  · contradiction

theorem run_cons (e : ScheduleEvent) (events : List ScheduleEvent) :
    s.run wanted node (e :: events) = (s.step wanted node e).bind fun t => t.run wanted node events :=
  rfl

theorem run_append (events more : List ScheduleEvent) :
    s.run wanted node (events ++ more) =
      (s.run wanted node events).bind fun t => t.run wanted node more := by
  induction events generalizing s with
  | nil => rfl
  | cons e events ih =>
    rw [List.cons_append, run_cons, run_cons, Option.bind_assoc]
    exact congrArg (Option.bind (s.step wanted node e)) (funext fun t => ih)

end Schedule

end SlotIndex
