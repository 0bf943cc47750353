import SlotIndex.Watch.Watcher

/-!
# Records of calls

Collaborators that keep a record of the calls that a watcher makes, so that it can be said how often a
transformer has tried a diff and with what outcome, and what the diff table has been told.

* `WatchCall`: the calls of a watcher; `Collaborators.recorded`: they are recorded, latest last.
* `outcomes`: the outcomes of all attempts at a diff.
* `Watcher.recorded`: a watcher whose record is empty; `Watcher.forget`: a watcher without its record.
* `forget_run`: a recorded watcher does what the watcher itself does.
-/

namespace SlotIndex

/-- A call that a watcher makes. -/
inductive WatchCall where
  /-- A transformer tries a diff, with a result. -/
  | execute (id : DiffId) (result : Except StorageError Unit)
  | markChecked (id : DiffId)
  | add (id : DiffId)
  | delete (id : DiffId)
  | queued
  | recordFailedAttempt (id : DiffId)

namespace WatchCall

/-- Whether a call goes to the retry queue. -/
def isOnQueue : WatchCall → Bool
  | .execute .. | .markChecked _ => false
  | .add _ | .delete _ | .queued | .recordFailedAttempt _ => true

/-- The outcome of a call if it is an attempt at a diff. -/
def outcomeOf? (id : DiffId) : WatchCall → Option (Except StorageError Unit)
  | .execute j result => if j = id then some result else none
  | _ => none

theorem outcomeOf?_of_isOnQueue {call : WatchCall} (h : call.isOnQueue = true) (id : DiffId) :
    call.outcomeOf? id = none := by
  cases call with
  | execute | markChecked => contradiction
  | add | delete | queued | recordFailedAttempt => rfl

end WatchCall

/-- The outcomes of all attempts at a diff, in order. -/
def outcomes (id : DiffId) (calls : List WatchCall) : List (Except StorageError Unit) :=
  calls.filterMap (WatchCall.outcomeOf? id)

theorem outcomes_append (id : DiffId) (calls more : List WatchCall) :
    outcomes id (calls ++ more) = outcomes id calls ++ outcomes id more :=
  List.filterMap_append

theorem outcomes_of_isOnQueue {calls : List WatchCall} (h : ∀ call ∈ calls, call.isOnQueue = true)
    (id : DiffId) : outcomes id calls = [] := by
  rw [outcomes, List.filterMap_eq_nil_iff]
  intro call hcall
  exact WatchCall.outcomeOf?_of_isOnQueue (h call hcall) id

variable {σ T : Type}

/-- Collaborators that record their calls, latest last. -/
def Collaborators.recorded (c : Collaborators σ T) : Collaborators (σ × List WatchCall) T where
  execute t d s :=
    let r := c.execute t d s.1
    (r.1, r.2, s.2 ++ [.execute d.id r.1])
  markChecked id s :=
    let r := c.markChecked id s.1
    (r.1, r.2, s.2 ++ [.markChecked id])
  add id s :=
    let r := c.add id s.1
    (r.1, r.2, s.2 ++ [.add id])
  delete id s :=
    let r := c.delete id s.1
    (r.1, r.2, s.2 ++ [.delete id])
  queued s :=
    let r := c.queued s.1
    (r.1, r.2, s.2 ++ [.queued])
  recordFailedAttempt id s :=
    let r := c.recordFailedAttempt id s.1
    (r.1, r.2, s.2 ++ [.recordFailedAttempt id])

namespace Watcher

/-- The watcher with an empty record. -/
def recorded (w : Watcher σ T) : Watcher (σ × List WatchCall) T where
  registry := w.registry
  world := (w.world, [])
  ended := w.ended

/-- The watcher without its record. -/
def forget (w : Watcher (σ × List WatchCall) T) : Watcher σ T where
  registry := w.registry
  world := w.world.1
  ended := w.ended

theorem forget_recorded (w : Watcher σ T) : w.recorded.forget = w := rfl

section Forget

variable (c : Collaborators σ T) (maxAttempts : Nat)

theorem fst_settle (d : StoredDiff) (origin : DiffOrigin) (result : Except StorageError Unit)
    (s : σ × List WatchCall) :
    (settle c.recorded maxAttempts d origin result s).1 =
      settle c maxAttempts d origin result s.1 := by
  match result, origin with
  | .ok (), .live => rfl
  | .ok (), .queue => rfl
  | .error e, .live =>
    simp only [settle]
    split <;> rfl
  | .error e, .queue =>
    simp only [settle, Collaborators.recorded]
    generalize c.recordFailedAttempt d.id s.1 = counted
    obtain ⟨attempts, world⟩ := counted
    by_cases hkind : e.kind = .keyNotFound
    · rw [if_pos hkind, if_pos hkind]
      cases attempts with
      | error => rfl
      | ok attempts =>
        simp only
        split <;> rfl
    · rw [if_neg hkind, if_neg hkind]

theorem fst_dispatch (d : StoredDiff) (origin : DiffOrigin) (transformer : Option T)
    (s : σ × List WatchCall) :
    (dispatch c.recorded maxAttempts d origin transformer s).1 =
      dispatch c maxAttempts d origin transformer s.1 := by
  cases transformer with
  | some t => exact fst_settle c maxAttempts d origin _ _
  | none => cases origin <;> rfl

theorem forget_process (w : Watcher (σ × List WatchCall) T) (d : StoredDiff) (origin : DiffOrigin) :
    (w.process c.recorded maxAttempts d origin).forget =
      w.forget.process c maxAttempts d origin := by
  have hdispatch := fst_dispatch c maxAttempts d origin (w.registry.resolve d.diff.account).1 w.world
  cases origin with
  | live =>
    have hmarked : ∀ s : σ × List WatchCall,
        (c.recorded.markChecked d.id s).2.1 = (c.markChecked d.id s.1).2 := fun _ => rfl
    simp only [process, forget, if_true, hmarked, hdispatch]
  | queue => simp only [process, forget, reduceCtorEq, if_false, hdispatch]

theorem forget_drain (w : Watcher (σ × List WatchCall) T) :
    (w.drain c.recorded maxAttempts).forget = w.forget.drain c maxAttempts := by
  have hfold : ∀ (ds : List StoredDiff) (w : Watcher (σ × List WatchCall) T),
      (ds.foldl (fun w d => w.process c.recorded maxAttempts d .queue) w).forget =
        ds.foldl (fun w d => w.process c maxAttempts d .queue) w.forget := by
    intro ds
    induction ds with
    | nil => exact fun _ => rfl
    | cons d ds ih =>
      intro w
      rw [List.foldl_cons, List.foldl_cons, ih, forget_process]
  simp only [drain, Collaborators.recorded]
  generalize hlisted : c.queued w.world.1 = listed
  have hlisted' : c.queued w.forget.world = listed := hlisted
  obtain ⟨ds, world⟩ := listed
  rw [hlisted']
  cases ds with
  | error => rfl
  | ok ds => exact hfold ds _

theorem forget_step (w : Watcher (σ × List WatchCall) T) (e : WatchEvent) :
    (w.step c.recorded maxAttempts e).forget = w.forget.step c maxAttempts e := by
  by_cases hended : w.ended.isSome
  · have hended' : w.forget.ended.isSome := hended
    rw [step.eq_def, if_pos hended, step.eq_def, if_pos hended']
  · have hended' : ¬ w.forget.ended.isSome := hended
    rw [step.eq_def, if_neg hended, step.eq_def, if_neg hended']
    match e with
    | .live (.ok d) => exact forget_process c maxAttempts w d .live
    | .live (.error _) | .close | .cancel => rfl
    | .tick => exact forget_drain c maxAttempts w

theorem forget_run (w : Watcher (σ × List WatchCall) T) (events : List WatchEvent) :
    (w.run c.recorded maxAttempts events).forget = w.forget.run c maxAttempts events := by
  induction events generalizing w with
  | nil => rfl
  | cons e events ih =>
    rw [run, List.foldl_cons, run, List.foldl_cons, ← forget_step]
    exact ih _

end Forget

end Watcher

end SlotIndex
