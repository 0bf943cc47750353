import SlotIndex.RetryQueue
import SlotIndex.Watch.Watcher

/-!
# Diffs whose key is not known

A live diff whose key its transformer does not know is put into the retry queue, and then it is marked
as checked, also when the queue has not taken it. It is met again by a later pass over the queue, or by
a later look at the unchecked diffs, unless the first call fails and the second one does not.

* `Collaborators.Lawful`: what is expected of the retry queue and of the diff table.
* `Memory`, `Memory.lawful`: both in memory, with calls that can be made to fail.
* `Watcher.process_live_keyNotFound`: the two calls.
* **`Watcher.retained_iff`**: when the diff is waiting or unchecked afterwards.
* `Watcher.lost_when_add_fails`: a diff that is neither.
-/

namespace SlotIndex

variable {σ T : Type}

/-- What is expected of the retry queue and of the diff table, where `waits` says which diffs the queue
holds and `unchecked` which ones the table lists as unchecked. A call that fails changes nothing. -/
structure Collaborators.Lawful (c : Collaborators σ T) (waits unchecked : DiffId → σ → Prop) :
    Prop where
  waits_add {id : DiffId} {s : σ} : (c.add id s).1 = .ok () → waits id (c.add id s).2
  waits_add_error {id : DiffId} {s : σ} {e : StorageError} :
    (c.add id s).1 = .error e → (waits id (c.add id s).2 ↔ waits id s)
  unchecked_add {id : DiffId} {s : σ} : unchecked id (c.add id s).2 ↔ unchecked id s
  waits_mark {id : DiffId} {s : σ} : waits id (c.markChecked id s).2 ↔ waits id s
  unchecked_mark {id : DiffId} {s : σ} :
    (c.markChecked id s).1 = .ok () → ¬ unchecked id (c.markChecked id s).2
  unchecked_mark_error {id : DiffId} {s : σ} {e : StorageError} :
    (c.markChecked id s).1 = .error e → (unchecked id (c.markChecked id s).2 ↔ unchecked id s)

/-! ## Collaborators in memory -/

/-- The retry queue and the diff table in memory, and the errors of the calls that are to fail. -/
structure Memory where
  diffs : List StoredDiff
  queue : RetryQueue
  checked : List DiffId
  addError : Option StorageError
  markError : Option StorageError

namespace Memory

/-- Whether a diff waits in the queue. -/
def waits (id : DiffId) (m : Memory) : Prop := m.queue.holds id = true

/-- Whether a diff of the table has not been checked. -/
def unchecked (id : DiffId) (m : Memory) : Prop :=
  (m.diffs.any fun d => d.id = id) = true ∧ id ∉ m.checked

/-- Collaborators that work on a memory. A transformer is the outcome of all its attempts. -/
def collaborators : Collaborators Memory (Except StorageError Unit) where
  execute t _ m := (t, m)
  markChecked id m :=
    match m.markError with
    | none => (.ok (), { m with checked := m.checked ++ [id] })
    | some e => (.error e, m)
  add id m :=
    match m.addError with
    | none => (.ok (), { m with queue := m.queue.add id })
    | some e => (.error e, m)
  delete id m := (.ok (), { m with queue := m.queue.delete id })
  queued m := (.ok (m.queue.filterMap fun e => m.diffs.find? fun d => d.id = e.id), m)
  recordFailedAttempt id m :=
    let r := m.queue.recordFailedAttempt id
    (.ok r.1, { m with queue := r.2 })

theorem lawful : collaborators.Lawful waits unchecked where
  waits_add {id m} h := by
    obtain ⟨diffs, queue, checked, addError, markError⟩ := m
    cases addError with
    | none => exact (RetryQueue.holds_add queue id id).2 (.inl rfl)
    | some e => cases h
  waits_add_error {id m e} h := by
    obtain ⟨diffs, queue, checked, addError, markError⟩ := m
    cases addError with
    | none => cases h
    | some e => rfl
  unchecked_add {id m} := by
    obtain ⟨diffs, queue, checked, addError, markError⟩ := m
    cases addError <;> rfl
  waits_mark {id m} := by
    obtain ⟨diffs, queue, checked, addError, markError⟩ := m
    cases markError <;> rfl
  unchecked_mark {id m} h := by
    obtain ⟨diffs, queue, checked, addError, markError⟩ := m
    cases markError with
    | none => exact fun hu => hu.2 (List.mem_append_right _ (List.mem_singleton.2 rfl))
    | some e => cases h
  unchecked_mark_error {id m e} h := by
    obtain ⟨diffs, queue, checked, addError, markError⟩ := m
    cases markError with
    | none => cases h
    | some e => rfl

end Memory

/-! ## A watcher in memory -/

theorem Registry.resolve_register (address : Address) (t : T) :
    ((Registry.empty.register address t).resolve address.hash).1 = some t := by
  have hget : (Registry.empty.register address t).resolved.get? address.hash = none :=
    Table.get?_empty _
  have hscan : (Registry.empty.register address t).scan address.hash = some t := by
    change ([(address, t)].find? fun e => e.1.hash = address.hash).map Prod.snd = some t
    rw [List.find?_cons, decide_eq_true rfl]
    rfl
  simp only [Registry.resolve, hget, hscan]

namespace Memory

/-- A diff of a contract. -/
def sampleDiff : StoredDiff := ⟨1, ⟨(default : Address).hash, default, 10, default, default⟩⟩

/-- A transformer that does not know the key. -/
def unknowing : Except StorageError Unit := .error (.keyNotFound sampleDiff.diff.key)

/-- A watcher of the contract with this transformer. -/
def sampleWatcher (addError markError : Option StorageError) :
    Watcher Memory (Except StorageError Unit) :=
  .start (Registry.empty.register default unknowing) ⟨[sampleDiff], [], [], addError, markError⟩

theorem resolve_sampleWatcher (addError markError : Option StorageError) :
    ((sampleWatcher addError markError).registry.resolve sampleDiff.diff.account).1 =
      some unknowing :=
  Registry.resolve_register _ _

end Memory

/-! ## What remains -/

namespace Watcher

variable {c : Collaborators σ T} {w : Watcher σ T} {d : StoredDiff} {t : T} {e : StorageError}
  {tried : σ}

/-- A live diff whose key is not known is queued and marked as checked. -/
theorem process_live_keyNotFound (maxAttempts : Nat)
    (ht : (w.registry.resolve d.diff.account).1 = some t)
    (he : c.execute t d w.world = (.error e, tried)) (hk : e.kind = .keyNotFound) :
    (w.process c maxAttempts d .live).world = (c.markChecked d.id (c.add d.id tried).2).2 := by
  have hdispatch : dispatch c maxAttempts d .live (some t) w.world = (c.add d.id tried).2 := by
    rw [dispatch, he]
    exact if_pos hk
  unfold process
  generalize w.registry.resolve d.diff.account = r at ht
  obtain ⟨transformer, registry⟩ := r
  obtain rfl : transformer = some t := ht
  exact congrArg (fun s => (c.markChecked d.id s).2) hdispatch

/-- **A live diff whose key is not known** waits in the queue or is unchecked after it has been dealt
with exactly if it waited before, or the queue has taken it, or it was unchecked before and could not be
marked as checked. -/
theorem retained_iff {waits unchecked : DiffId → σ → Prop} (hc : c.Lawful waits unchecked)
    (maxAttempts : Nat) (ht : (w.registry.resolve d.diff.account).1 = some t)
    (he : c.execute t d w.world = (.error e, tried)) (hk : e.kind = .keyNotFound) :
    (waits d.id (w.process c maxAttempts d .live).world ∨
        unchecked d.id (w.process c maxAttempts d .live).world) ↔
      waits d.id tried ∨ (c.add d.id tried).1 = .ok () ∨
        unchecked d.id tried ∧ (c.markChecked d.id (c.add d.id tried).2).1 ≠ .ok () := by
  rw [process_live_keyNotFound maxAttempts ht he hk, hc.waits_mark]
  have hwaits : waits d.id (c.add d.id tried).2 ↔
      waits d.id tried ∨ (c.add d.id tried).1 = .ok () := by
    cases hadd : (c.add d.id tried).1 with
    | ok _ => exact iff_of_true (hc.waits_add hadd) (.inr rfl)
    | error _ => simp [hc.waits_add_error hadd]
  have hunchecked : unchecked d.id (c.markChecked d.id (c.add d.id tried).2).2 ↔
      unchecked d.id tried ∧ (c.markChecked d.id (c.add d.id tried).2).1 ≠ .ok () := by
    cases hmark : (c.markChecked d.id (c.add d.id tried).2).1 with
    | ok _ => exact iff_of_false (hc.unchecked_mark hmark) fun h => h.2 rfl
    | error _ => simp [hc.unchecked_mark_error hmark, hc.unchecked_add]
  rw [hwaits, hunchecked, or_assoc]

theorem retained_when_queued :
    let w := Memory.sampleWatcher none none
    let after := (w.process Memory.collaborators 10 Memory.sampleDiff .live).world
    Memory.collaborators.Lawful Memory.waits Memory.unchecked ∧
      (w.registry.resolve Memory.sampleDiff.diff.account).1 = some Memory.unknowing ∧
      (Memory.waits 1 after ∨ Memory.unchecked 1 after) := by
  intro w after
  have ht := Memory.resolve_sampleWatcher none none
  have hiff := retained_iff (c := Memory.collaborators) (w := w) (d := Memory.sampleDiff)
    Memory.lawful 10 ht rfl rfl
  exact ⟨Memory.lawful, ht, hiff.2 (.inr (.inl rfl))⟩

/-- With the queue down and the table up the diff is neither waiting nor unchecked. -/
theorem lost_when_add_fails :
    let w := Memory.sampleWatcher (some (.io "queue down")) none
    let after := (w.process Memory.collaborators 10 Memory.sampleDiff .live).world
    Memory.collaborators.Lawful Memory.waits Memory.unchecked ∧
      (w.registry.resolve Memory.sampleDiff.diff.account).1 = some Memory.unknowing ∧
      Memory.collaborators.execute Memory.unknowing Memory.sampleDiff w.world =
        (.error (.keyNotFound Memory.sampleDiff.diff.key), w.world) ∧
      Memory.unchecked 1 w.world ∧ ¬ (Memory.waits 1 after ∨ Memory.unchecked 1 after) := by
  intro w after
  have ht := Memory.resolve_sampleWatcher (some (.io "queue down")) none
  have hw : after = { w.world with checked := [1] } :=
    process_live_keyNotFound (c := Memory.collaborators) (w := w) (d := Memory.sampleDiff) 10 ht
      rfl rfl
  refine ⟨Memory.lawful, ht, rfl, ⟨rfl, List.not_mem_nil⟩, ?_⟩
  rw [hw]
  rintro (hwaits | ⟨-, hn⟩)
  · exact Bool.false_ne_true hwaits
  · exact hn (List.mem_singleton.2 rfl)

end Watcher

end SlotIndex
