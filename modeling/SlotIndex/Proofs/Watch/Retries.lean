import Mathlib.Data.List.Induction
import Mathlib.Logic.Function.Iterate
import SlotIndex.Proofs.Watch.Drain

/-!
# The retry policy

What becomes of the entries of a retry queue that does not fail while it is drained again and again.

* `QueueEntry.settledBy`: what several attempts leave of an entry; `settledBy_eq` counts them.
* `Retrying`: a watcher with such a queue; `after`, `entryAfter` and `outcomesAfter` look at it after a
  number of drains.
* `entryAfter_of_watches`: an entry of a watched contract is what the outcomes so far have left of it.
* **`Retrying.settled_of_drains`**: the policy over whole runs.
-/

namespace SlotIndex

variable {σ T : Type}

/-! ## Several attempts -/

section Settled

variable (maxAttempts : Nat)

/-- What is left of an entry after attempts with the given outcomes, one after the other. -/
def QueueEntry.settledBy (e : QueueEntry) (rs : List (Except StorageError Unit)) :
    Option QueueEntry :=
  rs.foldl (fun left r => left.bind fun e => e.settled maxAttempts (some r)) (some e)

variable {maxAttempts}

theorem QueueEntry.settledBy_append_singleton (e : QueueEntry) (rs : List (Except StorageError Unit))
    (r : Except StorageError Unit) :
    e.settledBy maxAttempts (rs ++ [r]) =
      (e.settledBy maxAttempts rs).bind fun e => e.settled maxAttempts (some r) := by
  rw [settledBy, settledBy, List.foldl_append, List.foldl_cons, List.foldl_nil]

/-- **Attempts leave an entry behind exactly if none of them succeeds and too few of them find the key
unknown.** It has the number of the latter added to its count. -/
theorem QueueEntry.settledBy_eq (e : QueueEntry) (rs : List (Except StorageError Unit))
    (h : e.attempts < max 1 maxAttempts) :
    e.settledBy maxAttempts rs =
      if (∀ r ∈ rs, r ≠ .ok ()) ∧ e.attempts + rs.countP isMiss < max 1 maxAttempts then
        some { e with attempts := e.attempts + rs.countP isMiss }
      else none := by
  -- On the outcomes from the last one back, which is the one that decides whether the entry is left.
  induction rs using List.reverseRecOn with
  | nil =>
    have hnone : (∀ r ∈ ([] : List (Except StorageError Unit)), r ≠ .ok ()) :=
      fun _ hr => absurd hr List.not_mem_nil
    exact (if_pos ⟨hnone, h⟩).symm
  | append_singleton rs r ih =>
    rw [settledBy_append_singleton, ih]
    simp only [List.countP_append, List.countP_singleton, List.forall_mem_append,
      List.forall_mem_singleton]
    by_cases hleft : (∀ r ∈ rs, r ≠ .ok ()) ∧ e.attempts + rs.countP isMiss < max 1 maxAttempts
    · rw [if_pos hleft, Option.bind_some]
      cases r with
      | ok => rw [settled, if_neg fun hafter => hafter.1.2 rfl]
      | error error =>
        have herror : (Except.error error : Except StorageError Unit) ≠ .ok () := by
          intro h
          cases h
        by_cases hkind : error.kind = .keyNotFound
        · simp only [settled, isMiss, hkind, decide_true, if_true]
          by_cases hlast : max 1 maxAttempts ≤ e.attempts + rs.countP isMiss + 1
          · rw [if_pos hlast, if_neg (by omega)]
          · rw [if_neg hlast, if_pos ⟨⟨hleft.1, herror⟩, by omega⟩, Nat.add_assoc]
        · simp only [settled, isMiss, hkind, decide_false, if_false, Bool.false_eq_true, Nat.add_zero]
          rw [if_pos ⟨⟨hleft.1, herror⟩, hleft.2⟩]
    · rw [if_neg hleft, Option.bind_none, if_neg]
      intro hafter
      exact hleft ⟨hafter.1.1, by omega⟩

end Settled

/-! ## Whole runs -/

/-- A watcher with a retry queue that does not fail and holds each diff at most once. -/
structure Retrying (σ T : Type) where
  collaborators : Collaborators σ T
  queue : σ → RetryQueue
  known : DiffId → Option StoredDiff
  serves : collaborators.Serves queue known
  watcher : Watcher σ T
  nodup_ids : ((queue watcher.world).map QueueEntry.id).Nodup

namespace Retrying

open RetryQueue (entryOf?)

variable (x : Retrying σ T) (maxAttempts n : Nat) (id : DiffId)

def Watches : Prop :=
  ∃ d, x.known id = some d ∧ (x.watcher.registry.resolve d.diff.account).1.isSome

def IsForeign : Prop :=
  ∃ d, x.known id = some d ∧ (x.watcher.registry.resolve d.diff.account).1 = none

/-- The watcher after a number of drains. -/
def after : Watcher σ T := (fun w => w.drain x.collaborators maxAttempts)^[n] x.watcher

/-- The same watcher with the record of its calls. -/
def recordedAfter : Watcher (σ × List WatchCall) T :=
  (fun w => w.drain x.collaborators.recorded maxAttempts)^[n] x.watcher.recorded

/-- The calls of so many drains. -/
def callsAfter : List WatchCall := (x.recordedAfter maxAttempts n).world.2

/-- The entry of a diff after a number of drains. -/
def entryAfter : Option QueueEntry := entryOf? (x.queue (x.after maxAttempts n).world) id

/-- The outcomes of the attempts at a diff in a number of drains. -/
def outcomesAfter : List (Except StorageError Unit) := outcomes id (x.callsAfter maxAttempts n)

theorem recordedAfter_succ : x.recordedAfter maxAttempts (n + 1) =
    (x.recordedAfter maxAttempts n).drain x.collaborators.recorded maxAttempts :=
  Function.iterate_succ_apply' _ n _

theorem forget_recordedAfter : (x.recordedAfter maxAttempts n).forget = x.after maxAttempts n := by
  induction n with
  | zero => exact Watcher.forget_recorded x.watcher
  | succ n ih =>
    rw [recordedAfter_succ, Watcher.forget_drain, ih, after, after, Function.iterate_succ_apply']

theorem entryAfter_eq : x.entryAfter maxAttempts n id =
    entryOf? (x.queue (x.recordedAfter maxAttempts n).world.1) id := by
  rw [entryAfter, ← forget_recordedAfter]
  rfl

theorem continues_recordedAfter :
    Watcher.Continues x.queue x.watcher.recorded (x.recordedAfter maxAttempts n) := by
  induction n with
  | zero => exact Watcher.Continues.refl _
  | succ n ih =>
    rw [recordedAfter_succ]
    exact ih.trans (Watcher.continues_drain x.serves maxAttempts _)

theorem nodup_ids_recordedAfter :
    ((x.queue (x.recordedAfter maxAttempts n).world.1).map QueueEntry.id).Nodup :=
  (x.continues_recordedAfter maxAttempts n).ids.nodup x.nodup_ids

variable {x id}

/-- One more drain settles the entry of a diff by the outcome of one attempt at it. -/
theorem entryAfter_succ {d : StoredDiff} (hknown : x.known id = some d) {e : QueueEntry}
    (h : x.entryAfter maxAttempts n id = some e) :
    ∃ result : Option (Except StorageError Unit),
      (result.isSome ↔ (x.watcher.registry.resolve d.diff.account).1.isSome) ∧
      x.entryAfter maxAttempts (n + 1) id = e.settled maxAttempts result ∧
      x.outcomesAfter maxAttempts (n + 1) id =
        x.outcomesAfter maxAttempts n id ++ result.toList := by
  rw [entryAfter_eq] at h
  obtain ⟨result, hresult, hentry, houtcomes⟩ := Watcher.drain_present x.serves maxAttempts _
    (x.nodup_ids_recordedAfter maxAttempts n) h hknown
  rw [(x.continues_recordedAfter maxAttempts n).resolve] at hresult
  rw [← recordedAfter_succ] at hentry houtcomes
  exact ⟨result, hresult, by rw [entryAfter_eq, hentry], houtcomes⟩

theorem entryAfter_succ_of_none (h : x.entryAfter maxAttempts n id = none) :
    x.entryAfter maxAttempts (n + 1) id = none ∧
      x.outcomesAfter maxAttempts (n + 1) id = x.outcomesAfter maxAttempts n id := by
  rw [entryAfter_eq] at h
  obtain ⟨hentry, houtcomes⟩ := Watcher.drain_absent x.serves maxAttempts _ h
  rw [← recordedAfter_succ] at hentry houtcomes
  exact ⟨by rw [entryAfter_eq, hentry], houtcomes⟩

/-- An entry of a watched contract is what the outcomes so far have left of it. -/
theorem entryAfter_of_watches (hwatched : x.Watches id) {e : QueueEntry}
    (h : x.entryAfter maxAttempts 0 id = some e) :
    x.entryAfter maxAttempts n id = e.settledBy maxAttempts (x.outcomesAfter maxAttempts n id) := by
  obtain ⟨d, hknown, hresolve⟩ := hwatched
  induction n with
  | zero => exact h
  | succ n ih =>
    cases hentry : x.entryAfter maxAttempts n id with
    | none =>
      obtain ⟨hnone, houtcomes⟩ := entryAfter_succ_of_none maxAttempts n hentry
      rw [hnone, houtcomes, ← ih, hentry]
    | some e' =>
      obtain ⟨result, hresult, hsettled, houtcomes⟩ := entryAfter_succ maxAttempts n hknown hentry
      obtain ⟨r, rfl⟩ := Option.isSome_iff_exists.1 (hresult.2 hresolve)
      rw [hsettled, houtcomes, Option.toList_some, QueueEntry.settledBy_append_singleton, ← ih, hentry,
        Option.bind_some]

/-- Each drain makes one attempt at a diff of a watched contract that is queued, and none at any other
diff. -/
theorem outcomesAfter_succ (hwatched : x.Watches id) :
    ∃ r, x.outcomesAfter maxAttempts (n + 1) id =
      x.outcomesAfter maxAttempts n id ++
        if (x.entryAfter maxAttempts n id).isSome then [r] else [] := by
  obtain ⟨d, hknown, hresolve⟩ := hwatched
  cases hentry : x.entryAfter maxAttempts n id with
  | none =>
    obtain ⟨-, houtcomes⟩ := entryAfter_succ_of_none maxAttempts n hentry
    exact ⟨.ok (), by rw [houtcomes]; simp⟩
  | some e =>
    obtain ⟨result, hresult, -, houtcomes⟩ := entryAfter_succ maxAttempts n hknown hentry
    obtain ⟨r, rfl⟩ := Option.isSome_iff_exists.1 (hresult.2 hresolve)
    exact ⟨r, houtcomes⟩

/-- A diff of a contract that is not watched is never tried, and has no entry after the first drain. -/
theorem removed_of_isForeign (hforeign : x.IsForeign id) :
    x.entryAfter maxAttempts (n + 1) id = none ∧ x.outcomesAfter maxAttempts n id = [] := by
  obtain ⟨d, hknown, hresolve⟩ := hforeign
  have hsucc : ∀ n, x.entryAfter maxAttempts (n + 1) id = none ∧
      x.outcomesAfter maxAttempts (n + 1) id = x.outcomesAfter maxAttempts n id := by
    intro n
    cases hentry : x.entryAfter maxAttempts n id with
    | none => exact entryAfter_succ_of_none maxAttempts n hentry
    | some e =>
      obtain ⟨result, hresult, hsettled, houtcomes⟩ := entryAfter_succ maxAttempts n hknown hentry
      rw [hresolve] at hresult
      cases result with
      | some r => exact absurd (hresult.1 rfl) Bool.noConfusion
      | none => exact ⟨hsettled, houtcomes.trans (List.append_nil _)⟩
  refine ⟨(hsucc n).1, ?_⟩
  induction n with
  | zero => rfl
  | succ n ih => exact (hsucc n).2.trans ih

theorem not_markChecked_mem_callsAfter (x : Retrying σ T) (j : DiffId) :
    .markChecked j ∉ x.callsAfter maxAttempts n := by
  intro hmem
  exact List.not_mem_nil ((x.continues_recordedAfter maxAttempts n).of_markChecked hmem)

/-! ### Two watchers -/

section Two

variable {σ' T' : Type} (y : Retrying σ' T')

/-- The attempts that two watchers have both made at a diff have had the same outcomes. -/
def Agree (x : Retrying σ T) (y : Retrying σ' T') (maxAttempts n : Nat) (id : DiffId) : Prop :=
  ∀ (k : Nat) (r r' : Except StorageError Unit), (x.outcomesAfter maxAttempts n id)[k]? = some r →
    (y.outcomesAfter maxAttempts n id)[k]? = some r' → r = r'

variable {y}

theorem Agree.of_succ (hx : x.Watches id) (hy : y.Watches id)
    (h : Agree x y maxAttempts (n + 1) id) : Agree x y maxAttempts n id := by
  obtain ⟨r₁, h₁⟩ := outcomesAfter_succ maxAttempts n hx
  obtain ⟨r₂, h₂⟩ := outcomesAfter_succ maxAttempts n hy
  intro k r r' hr hr'
  obtain ⟨hk, -⟩ := List.getElem?_eq_some_iff.1 hr
  obtain ⟨hk', -⟩ := List.getElem?_eq_some_iff.1 hr'
  refine h k r r' ?_ ?_
  · rw [h₁, List.getElem?_append_left hk, hr]
  · rw [h₂, List.getElem?_append_left hk', hr']

theorem outcomesAfter_eq_of_agree (hx : x.Watches id) (hy : y.Watches id) {e : QueueEntry}
    (hex : x.entryAfter maxAttempts 0 id = some e) (hey : y.entryAfter maxAttempts 0 id = some e)
    (h : Agree x y maxAttempts n id) :
    y.outcomesAfter maxAttempts n id = x.outcomesAfter maxAttempts n id := by
  -- While the outcomes agree so does the entry, and so both watchers try it again or neither does.
  induction n with
  | zero => rfl
  | succ n ih =>
    have hprior := ih (h.of_succ maxAttempts n hx hy)
    have hentry : y.entryAfter maxAttempts n id = x.entryAfter maxAttempts n id := by
      rw [entryAfter_of_watches maxAttempts n hy hey, entryAfter_of_watches maxAttempts n hx hex, hprior]
    obtain ⟨r₁, h₁⟩ := outcomesAfter_succ maxAttempts n hx
    obtain ⟨r₂, h₂⟩ := outcomesAfter_succ maxAttempts n hy
    rw [hentry] at h₂
    by_cases hqueued : (x.entryAfter maxAttempts n id).isSome
    · rw [if_pos hqueued] at h₁ h₂
      have hr : r₁ = r₂ := by
        refine h (x.outcomesAfter maxAttempts n id).length r₁ r₂ ?_ ?_
        · rw [h₁, List.getElem?_concat_length]
        · rw [h₂, hprior, List.getElem?_concat_length]
      rw [h₁, h₂, hprior, hr]
    · rw [if_neg hqueued, List.append_nil] at h₁ h₂
      rw [h₁, h₂, hprior]

end Two

/-- **The retry policy.** No drain marks a diff as checked. A diff of a contract that is not watched is
never tried and has no entry after the first drain. An entry of a watched contract that starts without
failed attempts is there after `n` drains exactly if no attempt at its diff has succeeded and fewer
attempts than allowed have found the key unknown; only these count. Its diff is tried once by each drain
that finds the entry. What becomes of the entry depends on the outcomes of these attempts alone: it is
the same for another watcher, with another queue, whose attempts have the same outcomes. -/
theorem settled_of_drains (x : Retrying σ T) (maxAttempts n : Nat) (id : DiffId) :
    (∀ j, .markChecked j ∉ x.callsAfter maxAttempts n) ∧
      (x.IsForeign id →
        x.entryAfter maxAttempts (n + 1) id = none ∧ x.outcomesAfter maxAttempts n id = []) ∧
      (x.Watches id → x.entryAfter maxAttempts 0 id = some ⟨id, 0⟩ →
        ((x.entryAfter maxAttempts n id).isSome ↔
          (∀ r ∈ x.outcomesAfter maxAttempts n id, r ≠ .ok ()) ∧
            (x.outcomesAfter maxAttempts n id).countP isMiss < max 1 maxAttempts) ∧
        (∀ e, x.entryAfter maxAttempts n id = some e →
          e.attempts = (x.outcomesAfter maxAttempts n id).countP isMiss) ∧
        (∃ r, x.outcomesAfter maxAttempts (n + 1) id =
          x.outcomesAfter maxAttempts n id ++
            if (x.entryAfter maxAttempts n id).isSome then [r] else []) ∧
        ∀ {σ' T' : Type} (y : Retrying σ' T'),
          y.Watches id → y.entryAfter maxAttempts 0 id = some ⟨id, 0⟩ →
          Agree x y maxAttempts n id →
            y.entryAfter maxAttempts n id = x.entryAfter maxAttempts n id ∧
              y.outcomesAfter maxAttempts n id = x.outcomesAfter maxAttempts n id) := by
  refine ⟨not_markChecked_mem_callsAfter maxAttempts n x, removed_of_isForeign maxAttempts n, ?_⟩
  intro hwatched hentry
  have hleft := entryAfter_of_watches maxAttempts n hwatched hentry
  have hsettled := QueueEntry.settledBy_eq ⟨id, 0⟩ (x.outcomesAfter maxAttempts n id)
    (show 0 < max 1 maxAttempts by omega)
  simp only [Nat.zero_add] at hsettled
  rw [hsettled] at hleft
  refine ⟨?_, ?_, outcomesAfter_succ maxAttempts n hwatched, ?_⟩
  · rw [hleft]
    split <;> simp_all
  · intro e he
    rw [hleft, Option.ite_none_right_eq_some] at he
    rw [← Option.some.inj he.2]
  · intro σ' T' y hy hentryY hagree
    have houtcomes := outcomesAfter_eq_of_agree maxAttempts n hwatched hy hentry hentryY hagree
    refine ⟨?_, houtcomes⟩
    rw [entryAfter_of_watches maxAttempts n hy hentryY, houtcomes,
      entryAfter_of_watches maxAttempts n hwatched hentry]

/-! ### A queue in memory -/

/-- A retry queue in memory, and the diffs that have been tried, latest first. -/
structure Bench where
  queue : RetryQueue
  tried : List DiffId

namespace Bench

/-- The only watched contract. -/
def watched : Address := Address.ofBytes [1]

/-- Diffs of the watched contract, but for diff 7. -/
def known (id : DiffId) : Option StoredDiff :=
  let account := if id = 7 then (Address.ofBytes [2]).hash else watched.hash
  some ⟨id, account, Word.ofNat 0, 100, Word.ofNat 0, Word.ofNat 5⟩

/-- Diff 1 meets a failing table and then an unknown key, and any other diff succeeds at once. -/
def attempt (id : DiffId) (earlier : Nat) : Except StorageError Unit :=
  if id = 1 then
    if earlier = 0 then .error (.io "table down") else .error (.keyNotFound (Word.ofNat 0))
  else .ok ()

def collaborators : Collaborators Bench Unit where
  execute _ d s := (attempt d.id (s.tried.count d.id), { s with tried := d.id :: s.tried })
  markChecked _ s := (.ok (), s)
  add id s := (.ok (), { s with queue := s.queue.add id })
  delete id s := (.ok (), { s with queue := s.queue.delete id })
  queued s := (.ok (s.queue.filterMap fun e => known e.id), s)
  recordFailedAttempt id s :=
    let r := s.queue.recordFailedAttempt id
    (.ok r.1, { s with queue := r.2 })

theorem serves : collaborators.Serves queue known where
  id_of_known h := by
    cases h
    rfl
  queued _ := rfl
  queue_queued _ := rfl
  queue_delete _ _ := rfl
  recordFailedAttempt _ _ := rfl
  queue_recordFailedAttempt _ _ := rfl
  queue_execute _ _ _ := rfl

/-- A watcher whose queue holds some ids. -/
def retrying (ids : List DiffId) (h : ids.Nodup) : Retrying Bench Unit where
  collaborators := collaborators
  queue := queue
  known := known
  serves := serves
  watcher := Watcher.start (Registry.ofList [(watched, ())]) ⟨ids.map fun id => ⟨id, 0⟩, []⟩
  nodup_ids := by
    have hids : (ids.map fun id => QueueEntry.mk id 0).map QueueEntry.id = ids := by
      rw [List.map_map]
      exact List.map_id ids
    exact hids.symm ▸ h

def crowded : Retrying Bench Unit := retrying [7, 1, 2] (by decide)

def alone : Retrying Bench Unit := retrying [1] (by decide)

end Bench

/-- With two attempts allowed, the failure of the table does not count against diff 1. -/
theorem settled_of_drains_beside_others :
    let failures := [Except.error (.io "table down"), .error (.keyNotFound (Word.ofNat 0))]
    Bench.crowded.IsForeign 7 ∧ Bench.crowded.entryAfter 2 1 7 = none ∧
      Bench.crowded.Watches 1 ∧ Bench.crowded.outcomesAfter 2 2 1 = failures ∧
      (Bench.crowded.entryAfter 2 2 1).isSome ∧
      Bench.alone.entryAfter 2 2 1 = Bench.crowded.entryAfter 2 2 1 ∧
      .markChecked 2 ∉ Bench.crowded.callsAfter 2 2 := by
  intro failures
  have hforeign : Bench.crowded.IsForeign 7 := ⟨_, rfl, by decide +kernel⟩
  have hwatched : Bench.crowded.Watches 1 := ⟨_, rfl, by decide +kernel⟩
  have halone : Bench.alone.Watches 1 := ⟨_, rfl, by decide +kernel⟩
  have houtcomes : Bench.crowded.outcomesAfter 2 2 1 = failures := by decide +kernel
  have hagree : Agree Bench.crowded Bench.alone 2 2 1 := by
    have halone : Bench.alone.outcomesAfter 2 2 1 = failures := by decide +kernel
    intro k r r' hr hr'
    rw [houtcomes] at hr
    rw [halone, hr] at hr'
    exact Option.some.inj hr'
  obtain ⟨hunmarked, -, hqueued⟩ := settled_of_drains Bench.crowded 2 2 1
  obtain ⟨-, hremoved, -⟩ := settled_of_drains Bench.crowded 2 0 7
  obtain ⟨hisSome, -, -, hindependent⟩ := hqueued hwatched rfl
  refine ⟨hforeign, (hremoved hforeign).1, hwatched, houtcomes, hisSome.2 ?_,
    (hindependent Bench.alone halone rfl hagree).1, hunmarked 2⟩
  rw [houtcomes]
  decide +kernel

end Retrying

end SlotIndex
