import SlotIndex.Diff

/-!
# The retry queue

Ids of diffs that wait for their metadata to become known, in the order in which they were added,
each with the number of failed attempts.

* `RetryQueue.add`, `RetryQueue.delete`, `RetryQueue.recordFailedAttempt`.
* `holds_add`: which ids wait after one has been added.
* `RetryQueue.entryOf?`: the entry of an id; `entryOf?_delete`, `entryOf?_recordFailedAttempt`.
-/

namespace SlotIndex

/-- A waiting diff. -/
structure QueueEntry where
  id : DiffId
  attempts : Nat
deriving DecidableEq

/-- The waiting diffs, in the order in which they were added. -/
abbrev RetryQueue := List QueueEntry

namespace RetryQueue

/-- The largest attempt count. -/
def maxAttempts : Nat := UInt32.size - 1

/-- Whether an id waits. -/
def holds (q : RetryQueue) (id : DiffId) : Bool := q.any fun e => e.id = id

/-- Add an id. An id that waits already stays as it is. -/
def add (q : RetryQueue) (id : DiffId) : RetryQueue :=
  if holds q id then q else q ++ [⟨id, 0⟩]

theorem holds_add (q : RetryQueue) (id j : DiffId) :
    holds (add q id) j = true ↔ j = id ∨ holds q j = true := by
  by_cases h : holds q id = true
  · rw [add, if_pos h]
    exact ⟨Or.inr, fun hj => hj.elim (fun e => e ▸ h) fun hj => hj⟩
  · rw [add, if_neg h, holds, List.any_append, Bool.or_eq_true, or_comm]
    refine or_congr ?_ Iff.rfl
    simp only [List.any_cons, List.any_nil, Bool.or_false, decide_eq_true_eq]
    exact eq_comm

/-- Remove an id. -/
def delete (q : RetryQueue) (id : DiffId) : RetryQueue :=
  q.filter fun e => e.id ≠ id

/-- Count one failed attempt of an id; the answer is the new count. An id that does not wait counts
as one whose attempts are used up. -/
def recordFailedAttempt : RetryQueue → DiffId → Nat × RetryQueue
  | [], _ => (maxAttempts, [])
  | e :: rest, id =>
    if e.id = id then (e.attempts + 1, { e with attempts := e.attempts + 1 } :: rest)
    else
      let r := recordFailedAttempt rest id
      (r.1, e :: r.2)

/-- The entry of an id. -/
def entryOf? (q : RetryQueue) (id : DiffId) : Option QueueEntry := q.find? fun e => e.id = id

@[simp] theorem entryOf?_cons (e : QueueEntry) (q : RetryQueue) (id : DiffId) :
    entryOf? (e :: q) id = if e.id = id then some e else entryOf? q id := by
  by_cases h : e.id = id <;> simp [entryOf?, h]

theorem id_of_entryOf? {q : RetryQueue} {id : DiffId} {e : QueueEntry} (h : entryOf? q id = some e) :
    e.id = id := by
  simpa using List.find?_some h

theorem mem_of_entryOf? {q : RetryQueue} {id : DiffId} {e : QueueEntry} (h : entryOf? q id = some e) :
    e ∈ q :=
  List.mem_of_find?_eq_some h

theorem entryOf?_delete (q : RetryQueue) (id j : DiffId) :
    entryOf? (delete q id) j = if j = id then none else entryOf? q j := by
  induction q with
  | nil => simp [delete, entryOf?]
  | cons e q ih =>
    rw [delete] at ih
    by_cases hid : e.id = id
    · rw [delete, List.filter_cons_of_neg (by simpa using hid), ih, entryOf?_cons]
      by_cases hj : j = id
      · rw [if_pos hj, if_pos hj]
      · rw [if_neg hj, if_neg hj, if_neg fun h => hj (h.symm.trans hid)]
    · rw [delete, List.filter_cons_of_pos (by simpa using hid), entryOf?_cons, ih, entryOf?_cons]
      by_cases hj : j = id
      · rw [if_pos hj, if_pos hj, if_neg fun h => hid (h.trans hj)]
      · rw [if_neg hj, if_neg hj]

theorem entryOf?_recordFailedAttempt (q : RetryQueue) (id j : DiffId) :
    entryOf? (recordFailedAttempt q id).2 j =
      if j = id then (entryOf? q id).map fun e => { e with attempts := e.attempts + 1 }
      else entryOf? q j := by
  induction q with
  | nil => simp [recordFailedAttempt, entryOf?]
  | cons e q ih =>
    by_cases hid : e.id = id
    · rw [recordFailedAttempt, if_pos hid, entryOf?_cons, entryOf?_cons, entryOf?_cons, if_pos hid]
      by_cases hj : j = id
      · rw [if_pos hj, if_pos (hid.trans hj.symm), Option.map_some]
      · have hne : e.id ≠ j := fun h => hj (h.symm.trans hid)
        rw [if_neg hj, if_neg hne, if_neg hne]
    · rw [recordFailedAttempt, if_neg hid, entryOf?_cons, ih, entryOf?_cons, entryOf?_cons, if_neg hid]
      by_cases hj : j = id
      · have hne : e.id ≠ j := fun h => hid (h.trans hj)
        rw [if_pos hj, if_pos hj, if_neg hne]
      · rw [if_neg hj, if_neg hj]

/-- The count of an id that waits goes up by one. -/
theorem recordFailedAttempt_of_entryOf? {q : RetryQueue} {id : DiffId} {e : QueueEntry}
    (h : entryOf? q id = some e) : (recordFailedAttempt q id).1 = e.attempts + 1 := by
  induction q with
  | nil => contradiction
  | cons f q ih =>
    rw [entryOf?_cons] at h
    by_cases hid : f.id = id
    · rw [if_pos hid] at h
      cases h
      rw [recordFailedAttempt, if_pos hid]
    · rw [if_neg hid] at h
      rw [recordFailedAttempt, if_neg hid]
      exact ih h

theorem map_id_recordFailedAttempt (q : RetryQueue) (id : DiffId) :
    (recordFailedAttempt q id).2.map QueueEntry.id = q.map QueueEntry.id := by
  induction q with
  | nil => rfl
  | cons e q ih =>
    by_cases hid : e.id = id
    · rw [recordFailedAttempt, if_pos hid]
      rfl
    · rw [recordFailedAttempt, if_neg hid, List.map_cons, ih, List.map_cons]

end RetryQueue

end SlotIndex
