import SlotIndex.RetryQueue
import SlotIndex.Proofs.Watch.Record

/-!
# Drains

What one drain does to the entries of a retry queue that does not fail. The queue lists its entries, and
each is tried once if its contract is watched. A success removes the entry, an unknown key counts against
it, and any other failure leaves it as it is.

* `Collaborators.Serves`: a retry queue that does not fail.
* `QueueEntry.settled`, `RetryQueue.settled`: what an attempt leaves of an entry and of the queue.
* `Watcher.process_queue`: all that happens to a queued diff.
* `Watcher.Continues`: what stays as it was.
* `Watcher.drain_present`, `Watcher.drain_absent`: what a drain does to one entry.
-/

namespace SlotIndex

variable {σ T : Type}

/-- A retry queue that does not fail. `queue` is what the world holds of it, and `known` are the diffs of
the table; the queue lists those of its entries, in their order. Trying a diff leaves the queue alone. -/
structure Collaborators.Serves (c : Collaborators σ T) (queue : σ → RetryQueue)
    (known : DiffId → Option StoredDiff) : Prop where
  id_of_known {id : DiffId} {d : StoredDiff} : known id = some d → d.id = id
  queued (s : σ) : (c.queued s).1 = .ok ((queue s).filterMap fun e => known e.id)
  queue_queued (s : σ) : queue (c.queued s).2 = queue s
  queue_delete (id : DiffId) (s : σ) : queue (c.delete id s).2 = (queue s).delete id
  recordFailedAttempt (id : DiffId) (s : σ) :
    (c.recordFailedAttempt id s).1 = .ok ((queue s).recordFailedAttempt id).1
  queue_recordFailedAttempt (id : DiffId) (s : σ) :
    queue (c.recordFailedAttempt id s).2 = ((queue s).recordFailedAttempt id).2
  queue_execute (t : T) (d : StoredDiff) (s : σ) : queue (c.execute t d s).2 = queue s

/-! ## What an attempt leaves behind -/

/-- Whether an attempt has failed because the key is not known. -/
def isMiss : Except StorageError Unit → Bool
  | .ok () => false
  | .error e => e.kind = .keyNotFound

section Settled

variable (maxAttempts : Nat)

/-- What is left of an entry after an attempt, or after it has turned out that nobody can try it. -/
def QueueEntry.settled (e : QueueEntry) : Option (Except StorageError Unit) → Option QueueEntry
  | none | some (.ok ()) => none
  | some (.error error) =>
    if error.kind = .keyNotFound then
      if max 1 maxAttempts ≤ e.attempts + 1 then none
      else some { e with attempts := e.attempts + 1 }
    else some e

namespace RetryQueue

/-- What is left of a queue after an attempt at the diff of an id, or after it has turned out that
nobody can try it. -/
def settled (q : RetryQueue) (id : DiffId) : Option (Except StorageError Unit) → RetryQueue
  | none | some (.ok ()) => q.delete id
  | some (.error error) =>
    if error.kind = .keyNotFound then
      let r := q.recordFailedAttempt id
      if max 1 maxAttempts ≤ r.1 then r.2.delete id else r.2
    else q

variable {maxAttempts}

theorem entryOf?_settled_self (q : RetryQueue) (id : DiffId)
    (result : Option (Except StorageError Unit)) :
    entryOf? (q.settled maxAttempts id result) id =
      (entryOf? q id).bind fun e => e.settled maxAttempts result := by
  have hdeleted : ∀ q : RetryQueue, entryOf? (q.delete id) id = none := by
    intro q
    rw [entryOf?_delete, if_pos rfl]
  match result with
  | none | some (.ok ()) =>
    rw [settled, hdeleted]
    cases entryOf? q id <;> rfl
  | some (.error error) =>
    by_cases hkind : error.kind = .keyNotFound
    · have hcounted := entryOf?_recordFailedAttempt q id id
      rw [if_pos rfl] at hcounted
      cases hentry : entryOf? q id with
      | none =>
        rw [hentry, Option.map_none] at hcounted
        simp only [settled, if_pos hkind]
        split
        · rw [hdeleted, Option.bind_none]
        · rw [hcounted, Option.bind_none]
      | some e =>
        rw [hentry, Option.map_some] at hcounted
        simp only [settled, QueueEntry.settled, if_pos hkind, recordFailedAttempt_of_entryOf? hentry,
          Option.bind_some]
        split
        · rw [hdeleted]
        · rw [hcounted]
    · simp only [settled, QueueEntry.settled, if_neg hkind]
      cases entryOf? q id <;> rfl

theorem entryOf?_settled_of_ne (q : RetryQueue) {id j : DiffId} (h : j ≠ id)
    (result : Option (Except StorageError Unit)) :
    entryOf? (q.settled maxAttempts id result) j = entryOf? q j := by
  have hdeleted : ∀ q : RetryQueue, entryOf? (q.delete id) j = entryOf? q j := by
    intro q
    rw [entryOf?_delete, if_neg h]
  match result with
  | none | some (.ok ()) => exact hdeleted q
  | some (.error error) =>
    have hcounted := entryOf?_recordFailedAttempt q id j
    rw [if_neg h] at hcounted
    simp only [settled]
    split
    · split
      · rw [hdeleted, hcounted]
      · exact hcounted
    · rfl

theorem map_id_settled (q : RetryQueue) (id : DiffId) (result : Option (Except StorageError Unit)) :
    ((q.settled maxAttempts id result).map QueueEntry.id).Sublist (q.map QueueEntry.id) := by
  have hdeleted : ∀ q : RetryQueue,
      ((q.delete id).map QueueEntry.id).Sublist (q.map QueueEntry.id) :=
    fun q => List.filter_sublist.map QueueEntry.id
  have hcounted := map_id_recordFailedAttempt q id
  match result with
  | none | some (.ok ()) => exact hdeleted q
  | some (.error error) =>
    simp only [settled]
    split
    · split
      · rw [← hcounted]
        exact hdeleted _
      · exact hcounted ▸ List.Sublist.refl _
    · exact List.Sublist.refl _

end RetryQueue

end Settled

/-! ## One queued diff -/

namespace Watcher

open RetryQueue (entryOf?)

variable {c : Collaborators σ T} {queue : σ → RetryQueue} {known : DiffId → Option StoredDiff}
  (hc : c.Serves queue known) (maxAttempts : Nat) (w : Watcher (σ × List WatchCall) T)

include hc

/-- What follows on the attempt at a queued diff. -/
theorem settle_queue (d : StoredDiff) (result : Except StorageError Unit) (s : σ × List WatchCall) :
    ∃ more : List WatchCall, (∀ call ∈ more, call.isOnQueue = true) ∧
      queue (settle c.recorded maxAttempts d .queue result s).1 =
        (queue s.1).settled maxAttempts d.id (some result) ∧
      (settle c.recorded maxAttempts d .queue result s).2 = s.2 ++ more := by
  match result with
  | .ok () => exact ⟨[.delete d.id], by simp [WatchCall.isOnQueue], hc.queue_delete d.id s.1, rfl⟩
  | .error e =>
    by_cases hkind : e.kind = .keyNotFound
    · have hattempts := hc.recordFailedAttempt d.id s.1
      have hcounted := hc.queue_recordFailedAttempt d.id s.1
      by_cases hmax : max 1 maxAttempts ≤ ((queue s.1).recordFailedAttempt d.id).1
      · refine ⟨[.recordFailedAttempt d.id, .delete d.id], by simp [WatchCall.isOnQueue], ?_, ?_⟩
        · simp only [settle, Collaborators.recorded, RetryQueue.settled, if_pos hkind, hattempts,
            if_pos hmax, hc.queue_delete, hcounted]
        · simp only [settle, Collaborators.recorded, if_pos hkind, hattempts, if_pos hmax,
            List.append_assoc, List.cons_append, List.nil_append]
      · refine ⟨[.recordFailedAttempt d.id], by simp [WatchCall.isOnQueue], ?_, ?_⟩
        · simp only [settle, Collaborators.recorded, RetryQueue.settled, if_pos hkind, hattempts,
            if_neg hmax, hcounted]
        · simp only [settle, Collaborators.recorded, if_pos hkind, hattempts, if_neg hmax]
    · refine ⟨[], by simp, ?_, ?_⟩
      · simp only [settle, RetryQueue.settled, if_neg hkind]
      · simp only [settle, if_neg hkind, List.append_nil]

/-- **All that happens to a queued diff.** It is tried once if its contract is watched, and the queue is
settled by the outcome. The calls that follow go to the queue. -/
theorem process_queue (d : StoredDiff) :
    ∃ result : Option (Except StorageError Unit), ∃ more : List WatchCall,
      (result.isSome ↔ (w.registry.resolve d.diff.account).1.isSome) ∧
      (∀ call ∈ more, call.isOnQueue = true) ∧
      queue (w.process c.recorded maxAttempts d .queue).world.1 =
        (queue w.world.1).settled maxAttempts d.id result ∧
      (w.process c.recorded maxAttempts d .queue).world.2 =
        w.world.2 ++ (result.toList.map (WatchCall.execute d.id) ++ more) ∧
      (w.process c.recorded maxAttempts d .queue).registry =
        (w.registry.resolve d.diff.account).2 := by
  unfold process
  generalize w.registry.resolve d.diff.account = resolved
  obtain ⟨transformer, registry⟩ := resolved
  cases transformer with
  | none =>
    refine ⟨none, [.delete d.id], Iff.rfl, by simp [WatchCall.isOnQueue], ?_, rfl, rfl⟩
    exact hc.queue_delete d.id w.world.1
  | some t =>
    let tried := c.execute t d w.world.1
    obtain ⟨more, hmore, hqueue, hcalls⟩ := settle_queue hc maxAttempts d tried.1
      (tried.2, w.world.2 ++ [.execute d.id tried.1])
    refine ⟨some tried.1, more, by simp, hmore, ?_, ?_, rfl⟩
    · exact hqueue.trans (by rw [hc.queue_execute])
    · exact hcalls.trans (by simp)

theorem process_other {d : StoredDiff} {id : DiffId} (h : id ≠ d.id) :
    entryOf? (queue (w.process c.recorded maxAttempts d .queue).world.1) id =
        entryOf? (queue w.world.1) id ∧
      outcomes id (w.process c.recorded maxAttempts d .queue).world.2 = outcomes id w.world.2 := by
  obtain ⟨result, more, -, hmore, hqueue, hcalls, -⟩ := process_queue hc maxAttempts w d
  rw [hqueue, hcalls, RetryQueue.entryOf?_settled_of_ne _ h, outcomes_append, outcomes_append,
    outcomes_of_isOnQueue hmore, List.append_nil]
  refine ⟨rfl, ?_⟩
  cases result with
  | none => exact List.append_nil _
  | some r => simp [outcomes, WatchCall.outcomeOf?, Ne.symm h]

theorem foldl_process_other {ds : List StoredDiff} {id : DiffId} (h : ∀ d ∈ ds, id ≠ d.id) :
    let after := ds.foldl (fun w d => w.process c.recorded maxAttempts d .queue) w
    entryOf? (queue after.world.1) id = entryOf? (queue w.world.1) id ∧
      outcomes id after.world.2 = outcomes id w.world.2 := by
  induction ds generalizing w with
  | nil => exact ⟨rfl, rfl⟩
  | cons d ds ih =>
    obtain ⟨hentry, houtcomes⟩ := process_other hc maxAttempts w (h d List.mem_cons_self)
    obtain ⟨hentry', houtcomes'⟩ := ih (w.process c.recorded maxAttempts d .queue)
      fun d hd => h d (List.mem_cons_of_mem _ hd)
    exact ⟨hentry'.trans hentry, houtcomes'.trans houtcomes⟩

/-- A diff that is dealt with has its entry settled by its outcome. -/
theorem process_own (d : StoredDiff) :
    ∃ result : Option (Except StorageError Unit),
      (result.isSome ↔ (w.registry.resolve d.diff.account).1.isSome) ∧
      entryOf? (queue (w.process c.recorded maxAttempts d .queue).world.1) d.id =
        (entryOf? (queue w.world.1) d.id).bind (fun e => e.settled maxAttempts result) ∧
      outcomes d.id (w.process c.recorded maxAttempts d .queue).world.2 =
        outcomes d.id w.world.2 ++ result.toList := by
  obtain ⟨result, more, hresult, hmore, hqueue, hcalls, -⟩ := process_queue hc maxAttempts w d
  refine ⟨result, hresult, ?_, ?_⟩
  · rw [hqueue, RetryQueue.entryOf?_settled_self]
  · rw [hcalls, outcomes_append, outcomes_append, outcomes_of_isOnQueue hmore, List.append_nil]
    cases result <;> simp [outcomes, WatchCall.outcomeOf?]

/-! ## What the queue never changes -/

omit hc in
/-- What stays as it was while queued diffs are dealt with: what a hashed address resolves to, that ids
only leave the queue, and what is marked as checked. -/
structure Continues (queue : σ → RetryQueue) (w w' : Watcher (σ × List WatchCall) T) : Prop where
  resolve (account : Word) : (w'.registry.resolve account).1 = (w.registry.resolve account).1
  ids : ((queue w'.world.1).map QueueEntry.id).Sublist ((queue w.world.1).map QueueEntry.id)
  of_markChecked {id : DiffId} : .markChecked id ∈ w'.world.2 → .markChecked id ∈ w.world.2

omit hc in
theorem Continues.refl : Continues queue w w where
  resolve _ := rfl
  ids := List.Sublist.refl _
  of_markChecked h := h

omit hc in
theorem Continues.trans {w₁ w₂ w₃ : Watcher (σ × List WatchCall) T} (h : Continues queue w₁ w₂)
    (h' : Continues queue w₂ w₃) : Continues queue w₁ w₃ where
  resolve account := (h'.resolve account).trans (h.resolve account)
  ids := h'.ids.trans h.ids
  of_markChecked hmem := h.of_markChecked (h'.of_markChecked hmem)

theorem continues_process (d : StoredDiff) :
    Continues queue w (w.process c.recorded maxAttempts d .queue) := by
  obtain ⟨result, more, -, hmore, hqueue, hcalls, hregistry⟩ := process_queue hc maxAttempts w d
  refine ⟨fun account => ?_, ?_, fun {id} hmem => ?_⟩
  · rw [hregistry, Registry.resolve_resolve]
  · rw [hqueue]
    exact RetryQueue.map_id_settled _ d.id result
  · rw [hcalls] at hmem
    rcases List.mem_append.1 hmem with hmem | hmem
    · exact hmem
    · rcases List.mem_append.1 hmem with hmem | hmem
      · obtain ⟨_, -, heq⟩ := List.mem_map.1 hmem
        cases heq
      · cases hmore _ hmem

theorem continues_foldl_process (ds : List StoredDiff) :
    Continues queue w (ds.foldl (fun w d => w.process c.recorded maxAttempts d .queue) w) := by
  induction ds generalizing w with
  | nil => exact Continues.refl w
  | cons d ds ih => exact (continues_process hc maxAttempts w d).trans (ih _)

/-! ## One drain -/

theorem drain_eq : w.drain c.recorded maxAttempts =
    ((queue w.world.1).filterMap fun e => known e.id).foldl
      (fun w d => w.process c.recorded maxAttempts d .queue)
      { w with world := (c.recorded.queued w.world).2 } := by
  have hlisted : (c.recorded.queued w.world).1 =
      .ok ((queue w.world.1).filterMap fun e => known e.id) := hc.queued w.world.1
  unfold drain
  generalize c.recorded.queued w.world = listed at hlisted ⊢
  obtain ⟨ds, world⟩ := listed
  cases hlisted
  rfl

omit hc in
theorem outcomes_queued (id : DiffId) :
    outcomes id (c.recorded.queued w.world).2.2 = outcomes id w.world.2 := by
  change outcomes id (w.world.2 ++ [.queued]) = _
  rw [outcomes_append]
  exact List.append_nil _

theorem continues_drain : Continues queue w (w.drain c.recorded maxAttempts) := by
  rw [drain_eq hc]
  let start : Watcher (σ × List WatchCall) T := { w with world := (c.recorded.queued w.world).2 }
  have hstart : Continues queue w start := by
    refine ⟨fun _ => rfl, ?_, fun {id} hmem => ?_⟩
    · have hqueue : queue start.world.1 = queue w.world.1 := hc.queue_queued w.world.1
      exact hqueue ▸ List.Sublist.refl _
    · have hcalls : start.world.2 = w.world.2 ++ [.queued] := rfl
      rw [hcalls, List.mem_append, List.mem_singleton] at hmem
      exact hmem.resolve_right WatchCall.noConfusion
  exact hstart.trans (continues_foldl_process hc maxAttempts start _)

/-- A drain settles the entry of each diff by the outcome of one attempt at it. -/
theorem drain_present (hids : ((queue w.world.1).map QueueEntry.id).Nodup) {id : DiffId}
    {e : QueueEntry} (hentry : entryOf? (queue w.world.1) id = some e) {d : StoredDiff}
    (hknown : known id = some d) :
    ∃ result : Option (Except StorageError Unit),
      (result.isSome ↔ (w.registry.resolve d.diff.account).1.isSome) ∧
      entryOf? (queue (w.drain c.recorded maxAttempts).world.1) id = e.settled maxAttempts result ∧
      outcomes id (w.drain c.recorded maxAttempts).world.2 =
        outcomes id w.world.2 ++ result.toList := by
  obtain ⟨front, back, hsplit⟩ := List.append_of_mem (RetryQueue.mem_of_entryOf? hentry)
  have hid : e.id = id := RetryQueue.id_of_entryOf? hentry
  have hd : d.id = id := hc.id_of_known hknown
  -- No other entry lists a diff of this id.
  have hother : ∀ f ∈ front ++ back, f.id ≠ id := by
    rw [hsplit, (List.perm_middle.map QueueEntry.id).nodup_iff, List.map_cons,
      List.nodup_cons] at hids
    intro f hf heq
    exact hids.1 (List.mem_map.2 ⟨f, hf, heq.trans hid.symm⟩)
  have hlisted : ∀ part : RetryQueue, (∀ f ∈ part, f ∈ front ++ back) →
      ∀ d' ∈ part.filterMap (fun f => known f.id), id ≠ d'.id := by
    intro part hpart d' hd' heq
    obtain ⟨f, hf, hf'⟩ := List.mem_filterMap.1 hd'
    exact hother f (hpart f hf) ((hc.id_of_known hf').symm.trans heq.symm)
  have hfront := hlisted front fun f hf => List.mem_append_left _ hf
  have hback := hlisted back fun f hf => List.mem_append_right _ hf
  rw [drain_eq hc, hsplit, List.filterMap_append, List.foldl_append,
    List.filterMap_cons_some (by rw [hid]; exact hknown), List.foldl_cons]
  -- The entries in front and behind leave this one alone; what it becomes is settled in between.
  let start : Watcher (σ × List WatchCall) T :=
    { w with world := (c.recorded.queued w.world).2 }
  let before := (front.filterMap fun e => known e.id).foldl
    (fun w d => w.process c.recorded maxAttempts d .queue) start
  obtain ⟨hentryBefore, houtcomesBefore⟩ := foldl_process_other hc maxAttempts start hfront
  obtain ⟨result, hresult, hentryOwn, houtcomesOwn⟩ := process_own hc maxAttempts before d
  obtain ⟨hentryAfter, houtcomesAfter⟩ := foldl_process_other hc maxAttempts
    (before.process c.recorded maxAttempts d .queue) hback
  rw [hd] at hentryOwn houtcomesOwn
  have hstart : entryOf? (queue start.world.1) id = some e := by
    rw [← hentry]
    exact congrArg (entryOf? · id) (hc.queue_queued w.world.1)
  refine ⟨result, ?_, ?_, ?_⟩
  · rw [hresult, (continues_foldl_process hc maxAttempts start _).resolve]
  · rw [hentryAfter, hentryOwn, hentryBefore, hstart, Option.bind_some]
  · rw [houtcomesAfter, houtcomesOwn, houtcomesBefore]
    exact congrArg (· ++ result.toList) (outcomes_queued w id)

/-- A diff without an entry is not tried. -/
theorem drain_absent {id : DiffId} (hentry : entryOf? (queue w.world.1) id = none) :
    entryOf? (queue (w.drain c.recorded maxAttempts).world.1) id = none ∧
      outcomes id (w.drain c.recorded maxAttempts).world.2 = outcomes id w.world.2 := by
  have hother : ∀ d ∈ (queue w.world.1).filterMap (fun e => known e.id), id ≠ d.id := by
    intro d hd heq
    obtain ⟨e, he, hd⟩ := List.mem_filterMap.1 hd
    have hid : e.id = id := (hc.id_of_known hd).symm.trans heq.symm
    have hnone := List.find?_eq_none.1 hentry e he
    exact hnone (decide_eq_true hid)
  rw [drain_eq hc]
  obtain ⟨hafter, houtcomes⟩ := foldl_process_other hc maxAttempts
    { w with world := (c.recorded.queued w.world).2 } hother
  refine ⟨hafter.trans ?_, houtcomes.trans (outcomes_queued w id)⟩
  rw [← hentry]
  exact congrArg (entryOf? · id) (hc.queue_queued w.world.1)

end Watcher

end SlotIndex
