import Mathlib.Data.List.Induction
import SlotIndex.Proofs.Watch.Drain

/-!
# Live diffs are served

A watcher deals with live diffs one after the other until an item of the live channel is an error, the
channel closes or the watcher is cancelled. Each diff is handed to the transformer of its contract and
marked as checked, whatever the collaborators answer; what happens at a tick is about queued diffs only.

* `IsTransformerOf`: the transformer of a contract, by what has been registered.
* `Registry.Sound`: a registry that has not learned anything wrong.
* `Answers`: all that happens at one event; `Serves`: all that happens in a run.
* `Watcher.answers_step`: each event is answered; `Watcher.serves_run`: so is a run.
* **`every_live_diff_is_served`**.
-/

namespace SlotIndex

variable {σ T : Type}

/-! ## The transformer of a contract -/

/-- A transformer has been registered for an address with this hash, and no other one for this address
after it. -/
def IsTransformerOf (ts : List (Address × T)) (account : Word) (t : T) : Prop :=
  ∃ front address back, ts = front ++ (address, t) :: back ∧ address.hash = account ∧
    address ∉ back.map Prod.fst

namespace Registry

variable {ts : List (Address × T)} {account : Word} {t : T}

theorem ofList_append_singleton (ts : List (Address × T)) (e : Address × T) :
    ofList (ts ++ [e]) = (ofList ts).register e.1 e.2 :=
  List.foldl_append

theorem resolved_ofList (ts : List (Address × T)) : (ofList ts).resolved = Table.empty := by
  induction ts using List.reverseRecOn with
  | nil => rfl
  | append_singleton ts e ih => rw [ofList_append_singleton, register, ih]

theorem transformers_ofList (ts : List (Address × T)) : (ofList ts).transformers = Table.ofList ts := by
  induction ts using List.reverseRecOn with
  | nil => rfl
  | append_singleton ts e ih =>
    have happend : Table.ofList (ts ++ [e]) = (Table.ofList ts).insert e.1 e.2 := List.foldl_append
    rw [ofList_append_singleton, register, ih, happend]

/-- The transformers are those that have been registered, and what is remembered of a hash is the
transformer of its contract. -/
structure Sound (ts : List (Address × T)) (r : Registry T) : Prop where
  transformers : r.transformers = (ofList ts).transformers
  resolved {account : Word} {t : T} : r.resolved.get? account = some t →
    IsTransformerOf ts account t

theorem sound_ofList (ts : List (Address × T)) : Sound ts (ofList ts) where
  transformers := rfl
  resolved h := by
    rw [resolved_ofList] at h
    contradiction

variable {r : Registry T}

/-- A scan finds an entry with the hash, whichever comes first. -/
theorem exists_entry_of_scan (h : r.scan account = some t) :
    ∃ address, (address, t) ∈ r.transformers.entries ∧ address.hash = account := by
  obtain ⟨⟨address, t'⟩, hfind, rfl⟩ := Option.map_eq_some_iff.1 h
  exact ⟨address, List.mem_of_find?_eq_some hfind, by simpa using List.find?_some hfind⟩

theorem Sound.isTransformerOf_of_scan (h : r.Sound ts) (hscan : r.scan account = some t) :
    IsTransformerOf ts account t := by
  obtain ⟨address, hmem, hhash⟩ := exists_entry_of_scan hscan
  rw [h.transformers, transformers_ofList, Table.mem_entries_iff, Table.get?_ofList_eq_some] at hmem
  obtain ⟨front, back, hts, hback⟩ := hmem
  exact ⟨front, address, back, hts, hhash, hback⟩

/-- A hash resolves to the transformer of its contract. -/
theorem Sound.isTransformerOf (h : r.Sound ts) (ht : (r.resolve account).1 = some t) :
    IsTransformerOf ts account t := by
  rw [fst_resolve] at ht
  rcases Option.or_eq_some_iff.1 ht with hget | ⟨-, hscan⟩
  · exact h.resolved hget
  · exact h.isTransformerOf_of_scan hscan

/-- Only a hash of no registered address resolves to nothing. -/
theorem Sound.hash_ne (h : r.Sound ts) (ht : (r.resolve account).1 = none) :
    ∀ e ∈ ts, e.1.hash ≠ account := by
  intro e he hhash
  rw [fst_resolve, Option.or_eq_none_iff, scan, Option.map_eq_none_iff] at ht
  have hkey : e.1 ∈ r.transformers.keys := by
    rw [h.transformers, transformers_ofList, Table.mem_keys_ofList]
    exact List.mem_map_of_mem he
  obtain ⟨e', he', heq⟩ := List.mem_map.1 hkey
  have hne := List.find?_eq_none.1 ht.2 e' he'
  rw [heq] at hne
  exact hne (decide_eq_true hhash)

theorem Sound.resolve (h : r.Sound ts) (account : Word) : (r.resolve account).2.Sound ts := by
  unfold Registry.resolve
  split
  · exact h
  · split
    · exact h
    · next t hscan =>
      refine ⟨h.transformers, fun {account' t'} hget => ?_⟩
      rw [Table.get?_insert] at hget
      split at hget
      · next heq =>
        rw [heq, ← Option.some.inj hget]
        exact h.isTransformerOf_of_scan hscan
      · exact h.resolved hget

end Registry

/-! ## Events and their answers -/

/-- How an event ends a watcher, if it does. -/
def WatchEvent.verdict? : WatchEvent → Option (Except WatchError Unit)
  | .live (.ok _) | .tick => none
  | .live (.error e) => some (.error (.source e))
  | .close | .cancel => some (.ok ())

/-- The id of a live diff. -/
def WatchEvent.liveId? : WatchEvent → Option DiffId
  | .live (.ok d) => some d.id
  | _ => none

/-- The events up to the first one that ends a watcher. -/
def servedEvents (events : List WatchEvent) : List WatchEvent :=
  events.takeWhile fun e => e.verdict?.isNone

/-- The id that a call marks as checked. -/
def WatchCall.marked? : WatchCall → Option DiffId
  | .markChecked id => some id
  | _ => none

/-- The calls by which a queued diff is tried again. -/
def WatchCall.IsRetryOf (id : DiffId) : WatchCall → Prop
  | .execute j _ | .delete j | .recordFailedAttempt j => j = id
  | .markChecked _ | .add _ | .queued => False

section Serves

variable (c : Collaborators σ T) (maxAttempts : Nat) (ts : List (Address × T))

/-- All that happens at an event that does not end the watcher: the calls, and what becomes of the world
`s`. -/
inductive Answers (s : σ) : WatchEvent → List WatchCall → σ → Prop where
  /-- The transformer does not know the key. The diff is queued. -/
  | missed {d : StoredDiff} {t : T} {result : Except StorageError Unit} {tried : σ}
      (ht : IsTransformerOf ts d.diff.account t) (htried : c.execute t d s = (result, tried))
      (hmiss : isMiss result = true) :
      Answers s (.live (.ok d)) [.execute d.id result, .add d.id, .markChecked d.id]
        (c.markChecked d.id (c.add d.id tried).2).2
  /-- The transformer succeeds or fails for another reason. -/
  | tried {d : StoredDiff} {t : T} {result : Except StorageError Unit} {tried : σ}
      (ht : IsTransformerOf ts d.diff.account t) (htried : c.execute t d s = (result, tried))
      (hmiss : isMiss result = false) :
      Answers s (.live (.ok d)) [.execute d.id result, .markChecked d.id]
        (c.markChecked d.id tried).2
  | unwatched {d : StoredDiff} (ht : ∀ e ∈ ts, e.1.hash ≠ d.diff.account) :
      Answers s (.live (.ok d)) [.markChecked d.id] (c.markChecked d.id s).2
  /-- The diffs that the queue lists are tried again. -/
  | drained {calls : List WatchCall} {s' : σ}
      (h : ∀ call ∈ calls, ∃ ds, (c.queued s).1 = .ok ds ∧ ∃ d ∈ ds, call.IsRetryOf d.id) :
      Answers s .tick (.queued :: calls) s'

/-- All that happens in a run from a watcher over events of which none ends it. -/
inductive Serves : Watcher σ T → List WatchEvent → List WatchCall → Prop where
  | nil (w : Watcher σ T) : Serves w [] []
  | cons {w : Watcher σ T} {e : WatchEvent} {events : List WatchEvent} {calls more : List WatchCall}
      (h : Answers c ts w.world e calls (w.step c maxAttempts e).world)
      (hrest : Serves (w.step c maxAttempts e) events more) : Serves w (e :: events) (calls ++ more)

variable {c maxAttempts ts}

/-- Each event marks its live diff, and nothing else. -/
theorem Answers.marked {s s' : σ} {e : WatchEvent} {calls : List WatchCall}
    (h : Answers c ts s e calls s') : calls.filterMap WatchCall.marked? = e.liveId?.toList := by
  cases h with
  | missed | tried | unwatched => rfl
  | drained h =>
    rw [List.filterMap_cons_none rfl]
    refine List.filterMap_eq_nil_iff.2 fun call hcall => ?_
    obtain ⟨ds, -, d, -, hretry⟩ := h call hcall
    cases call with
    | markChecked => cases hretry
    | execute | add | delete | queued | recordFailedAttempt => rfl

/-- A run marks its live diffs in their order, each of them once. -/
theorem Serves.marked {w : Watcher σ T} {events : List WatchEvent} {calls : List WatchCall}
    (h : Serves c maxAttempts ts w events calls) :
    calls.filterMap WatchCall.marked? = events.filterMap WatchEvent.liveId? := by
  induction h with
  | nil => rfl
  | @cons w e events calls more h _ ih =>
    rw [List.filterMap_append, h.marked, ih]
    cases hid : e.liveId? with
    | none => rw [List.filterMap_cons_none hid]; rfl
    | some id => rw [List.filterMap_cons_some hid]; rfl

end Serves

namespace Watcher

variable (c : Collaborators σ T) (maxAttempts : Nat)

/-- The calls in a run. -/
def calls (w : Watcher σ T) (events : List WatchEvent) : List WatchCall :=
  (w.recorded.run c.recorded maxAttempts events).world.2

variable {ts : List (Address × T)} {w : Watcher (σ × List WatchCall) T}

/-! ## One event -/

/-- What follows on the attempt at a live diff. -/
theorem settle_live (d : StoredDiff) (result : Except StorageError Unit)
    (s : σ) : settle c maxAttempts d .live result s =
      if isMiss result then (c.add d.id s).2 else s := by
  cases result with
  | ok => rfl
  | error e => by_cases hkind : e.kind = .keyNotFound <;> simp [settle, isMiss, hkind]

/-- A live diff is answered. -/
theorem answers_process (hw : w.registry.Sound ts) (d : StoredDiff) :
    ∃ calls, (w.process c.recorded maxAttempts d .live).world.2 = w.world.2 ++ calls ∧
      Answers c ts w.world.1 (.live (.ok d)) calls
        (w.process c.recorded maxAttempts d .live).world.1 := by
  unfold process
  cases hresolved : w.registry.resolve d.diff.account with
  | mk transformer registry =>
    cases transformer with
    | none => exact ⟨[.markChecked d.id], rfl, .unwatched (hw.hash_ne (by rw [hresolved]))⟩
    | some t =>
      have ht : IsTransformerOf ts d.diff.account t := hw.isTransformerOf (by rw [hresolved])
      cases htried : c.execute t d w.world.1 with
      | mk result tried =>
        simp only [dispatch, settle_live, if_true, Collaborators.recorded, htried]
        cases hmiss : isMiss result with
        | false => exact ⟨_, List.append_assoc .., .tried ht htried hmiss⟩
        | true => exact ⟨_, by simp, .missed ht htried hmiss⟩

/-- What follows on the attempt at a queued diff is about this diff. -/
theorem retries_settle (d : StoredDiff)
    (result : Except StorageError Unit) (s : σ × List WatchCall) :
    ∃ calls, (settle c.recorded maxAttempts d .queue result s).2 = s.2 ++ calls ∧
      ∀ call ∈ calls, call.IsRetryOf d.id := by
  cases result with
  | ok => exact ⟨[.delete d.id], rfl, by simp [WatchCall.IsRetryOf]⟩
  | error e =>
    by_cases hkind : e.kind = .keyNotFound
    · simp only [settle, Collaborators.recorded, if_pos hkind]
      cases hcounted : c.recordFailedAttempt d.id s.1 with
      | mk attempts world =>
        cases attempts with
        | error => exact ⟨[.recordFailedAttempt d.id], rfl, by simp [WatchCall.IsRetryOf]⟩
        | ok attempts =>
          by_cases hmax : max 1 maxAttempts ≤ attempts
          · refine ⟨[.recordFailedAttempt d.id, .delete d.id], ?_, by simp [WatchCall.IsRetryOf]⟩
            simp [hmax]
          · refine ⟨[.recordFailedAttempt d.id], ?_, by simp [WatchCall.IsRetryOf]⟩
            simp [hmax]
    · refine ⟨[], ?_, fun _ h => absurd h List.not_mem_nil⟩
      simp only [settle, if_neg hkind, List.append_nil]

/-- Dealing with a queued diff is about this diff. -/
theorem retries_process (w : Watcher (σ × List WatchCall) T) (d : StoredDiff) :
    ∃ calls, (w.process c.recorded maxAttempts d .queue).world.2 = w.world.2 ++ calls ∧
      ∀ call ∈ calls, call.IsRetryOf d.id := by
  unfold process
  cases w.registry.resolve d.diff.account with
  | mk transformer registry =>
    cases transformer with
    | none => exact ⟨[.delete d.id], rfl, by simp [WatchCall.IsRetryOf]⟩
    | some t =>
      cases htried : c.execute t d w.world.1 with
      | mk result tried =>
        obtain ⟨calls, hcalls, hretries⟩ :=
          retries_settle c maxAttempts d result (tried, w.world.2 ++ [.execute d.id result])
        refine ⟨.execute d.id result :: calls, ?_, ?_⟩
        · simp only [dispatch, Collaborators.recorded, htried]
          exact hcalls.trans (List.append_assoc ..)
        · rw [List.forall_mem_cons]
          exact ⟨rfl, hretries⟩

/-- Dealing with queued diffs is about these diffs. -/
theorem retries_foldl (hw : w.registry.Sound ts) (ds : List StoredDiff) :
    let after := ds.foldl (fun w d => w.process c.recorded maxAttempts d .queue) w
    after.registry.Sound ts ∧ after.ended = w.ended ∧
      ∃ calls, after.world.2 = w.world.2 ++ calls ∧
        ∀ call ∈ calls, ∃ d ∈ ds, call.IsRetryOf d.id := by
  induction ds generalizing w with
  | nil => exact ⟨hw, rfl, [], (List.append_nil _).symm, fun _ h => absurd h List.not_mem_nil⟩
  | cons d ds ih =>
    obtain ⟨calls, hcalls, hretries⟩ := retries_process c maxAttempts w d
    obtain ⟨hsound, hended, more, hmore, hretries'⟩ :=
      ih (w := w.process c.recorded maxAttempts d .queue) (hw.resolve _)
    refine ⟨hsound, hended, calls ++ more, ?_, fun call hcall => ?_⟩
    · rw [← List.append_assoc, ← hcalls]
      exact hmore
    · rcases List.mem_append.1 hcall with hcall | hcall
      · exact ⟨d, List.mem_cons_self, hretries call hcall⟩
      · obtain ⟨d', hd', hretry⟩ := hretries' call hcall
        exact ⟨d', List.mem_cons_of_mem d hd', hretry⟩

/-- A tick is answered. -/
theorem answers_drain (hw : w.registry.Sound ts) :
    (w.drain c.recorded maxAttempts).registry.Sound ts ∧
      (w.drain c.recorded maxAttempts).ended = w.ended ∧
      ∃ calls, (w.drain c.recorded maxAttempts).world.2 = w.world.2 ++ calls ∧
        Answers c ts w.world.1 .tick calls (w.drain c.recorded maxAttempts).world.1 := by
  unfold drain
  cases hlisted : c.queued w.world.1 with
  | mk listed world =>
    simp only [Collaborators.recorded, hlisted]
    cases listed with
    | error e =>
      exact ⟨hw, rfl, [.queued], rfl, .drained fun _ h => absurd h List.not_mem_nil⟩
    | ok ds =>
      obtain ⟨hsound, hended, calls, hcalls, hretries⟩ :=
        retries_foldl c maxAttempts
          (w := { w with world := (world, w.world.2 ++ [.queued]) }) hw ds
      refine ⟨hsound, hended, .queued :: calls, hcalls.trans (List.append_assoc ..), .drained ?_⟩
      exact fun call hcall => ⟨ds, by rw [hlisted], hretries call hcall⟩

/-- **Each event is answered.** Unless it ends the watcher, all that happens is as it should be, and the
watcher goes on. -/
theorem answers_step (hw : w.registry.Sound ts) (hrunning : w.ended = none) {e : WatchEvent}
    (he : e.verdict? = none) :
    (w.step c.recorded maxAttempts e).registry.Sound ts ∧
      (w.step c.recorded maxAttempts e).ended = none ∧
      ∃ calls, (w.step c.recorded maxAttempts e).world.2 = w.world.2 ++ calls ∧
        Answers c ts w.world.1 e calls (w.step c.recorded maxAttempts e).world.1 := by
  have hstep : ¬ w.ended.isSome = true := by simp [hrunning]
  rw [step.eq_def, if_neg hstep]
  cases e with
  | live item =>
    cases item with
    | ok d => exact ⟨hw.resolve _, hrunning, answers_process c maxAttempts hw d⟩
    | error e => contradiction
  | tick =>
    obtain ⟨hsound, hended, hcalls⟩ := answers_drain c maxAttempts hw
    exact ⟨hsound, hended.trans hrunning, hcalls⟩
  | close | cancel => contradiction

/-! ## Runs -/

theorem run_of_ended {w : Watcher σ T} (hended : w.ended.isSome = true) (events : List WatchEvent) :
    w.run c maxAttempts events = w := by
  induction events with
  | nil => rfl
  | cons e events ih =>
    rw [run, List.foldl_cons, step.eq_def, if_pos hended]
    exact ih

theorem step_of_verdict {w : Watcher σ T} (hrunning : w.ended = none) {e : WatchEvent}
    {verdict : Except WatchError Unit} (he : e.verdict? = some verdict) :
    w.step c maxAttempts e = { w with ended := some verdict } := by
  have hstep : ¬ w.ended.isSome = true := by simp [hrunning]
  rw [step.eq_def, if_neg hstep]
  cases e with
  | live item =>
    cases item with
    | ok d => contradiction
    | error e => rw [← Option.some.inj he]
  | tick => contradiction
  | close | cancel => rw [← Option.some.inj he]

/-- **A run is answered, event by event.** -/
theorem serves_run (hw : w.registry.Sound ts) (hrunning : w.ended = none)
    (events : List WatchEvent) :
    (w.run c.recorded maxAttempts events).ended = events.findSome? WatchEvent.verdict? ∧
      ∃ calls, (w.run c.recorded maxAttempts events).world.2 = w.world.2 ++ calls ∧
        Serves c maxAttempts ts w.forget (servedEvents events) calls := by
  induction events generalizing w with
  | nil => exact ⟨hrunning, [], (List.append_nil _).symm, .nil _⟩
  | cons e events ih =>
    rw [run, List.foldl_cons]
    cases he : e.verdict? with
    | some verdict =>
      have hserved : servedEvents (e :: events) = [] := List.takeWhile_cons_of_neg (by simp [he])
      have hrun := run_of_ended c.recorded maxAttempts (w := { w with ended := some verdict }) rfl events
      rw [run] at hrun
      rw [step_of_verdict c.recorded maxAttempts hrunning he, hrun, hserved, List.findSome?_cons, he]
      exact ⟨rfl, [], (List.append_nil _).symm, .nil _⟩
    | none =>
      obtain ⟨hsound, hgoes, calls, hcalls, hanswers⟩ := answers_step c maxAttempts hw hrunning he
      obtain ⟨hended, more, hmore, hserves⟩ := ih hsound hgoes
      have hserved : servedEvents (e :: events) = e :: servedEvents events :=
        List.takeWhile_cons_of_pos (by simp [he])
      have hworld : (w.step c.recorded maxAttempts e).world.1 = (w.forget.step c maxAttempts e).world :=
        congrArg Watcher.world (forget_step c maxAttempts w e)
      rw [hworld] at hanswers
      rw [forget_step] at hserves
      rw [hserved, List.findSome?_cons, he]
      refine ⟨hended, calls ++ more, ?_, .cons hanswers hserves⟩
      rw [← List.append_assoc, ← hcalls]
      exact hmore

/-- A watcher has no transformers exactly if none has been registered. -/
theorem ended_start (ts : List (Address × T)) (world : σ) :
    (start (Registry.ofList ts) world).ended =
      if ts = [] then some (.error .noTransformers) else none := by
  cases ts with
  | nil => rfl
  | cons e ts =>
    have hkey : e.1 ∈ (Registry.ofList (e :: ts)).transformers.keys := by
      rw [Registry.transformers_ofList, Table.mem_keys_ofList]
      exact List.mem_cons_self
    have hentries : (Registry.ofList (e :: ts)).transformers.entries ≠ [] := by
      intro hnil
      rw [Table.keys, hnil] at hkey
      contradiction
    rw [start, if_neg (by simpa using hentries), if_neg (List.cons_ne_nil e ts)]

end Watcher

/-- **Every live diff is served.** A watcher without transformers ends with an error of its own and does
nothing. Any other watcher answers one event after the other, whatever its collaborators do: a live diff
is handed to the transformer of its contract, if there is one, is queued if that one does not know the key,
and is marked as checked in any case, while a tick neither queues nor marks anything. It goes on until an
item of the live channel is an error, which is then its own, or until the channel closes or it is cancelled,
and does nothing from then on. -/
theorem every_live_diff_is_served (c : Collaborators σ T) (maxAttempts : Nat)
    (ts : List (Address × T)) (world : σ) (events : List WatchEvent) :
    let w := Watcher.start (Registry.ofList ts) world
    (ts = [] → w.ended = some (.error .noTransformers) ∧ w.run c maxAttempts events = w ∧
      w.calls c maxAttempts events = []) ∧
    (ts ≠ [] → Serves c maxAttempts ts w (servedEvents events) (w.calls c maxAttempts events) ∧
      (w.calls c maxAttempts events).filterMap WatchCall.marked? =
        (servedEvents events).filterMap WatchEvent.liveId? ∧
      (w.run c maxAttempts events).ended = events.findSome? WatchEvent.verdict?) := by
  intro w
  have hstart := Watcher.ended_start ts world
  constructor
  · intro hts
    rw [if_pos hts] at hstart
    have hended : w.ended.isSome = true := by rw [hstart]; rfl
    refine ⟨hstart, Watcher.run_of_ended c maxAttempts hended events, ?_⟩
    rw [Watcher.calls, Watcher.run_of_ended c.recorded maxAttempts (w := w.recorded) hended]
    rfl
  · intro hts
    rw [if_neg hts] at hstart
    obtain ⟨hended, calls, hcalls, hserves⟩ := Watcher.serves_run c maxAttempts (w := w.recorded)
      (Registry.sound_ofList ts) hstart events
    obtain rfl : w.calls c maxAttempts events = calls := hcalls.trans (List.nil_append calls)
    refine ⟨hserves, hserves.marked, ?_⟩
    rw [← hended, ← Watcher.forget_recorded w, ← Watcher.forget_run]
    rfl

/-- Collaborators that always fail. No key is known. -/
def failing : Collaborators Unit Unit where
  execute _ d _ := (.error (.keyNotFound d.diff.key), ())
  markChecked _ _ := (.error (.database (.pool "gone")), ())
  add _ _ := (.error (.database (.pool "gone")), ())
  delete _ _ := (.error (.database (.pool "gone")), ())
  queued _ := (.error (.database (.pool "gone")), ())
  recordFailedAttempt _ _ := (.error (.database (.pool "gone")), ())

/-- The loop goes on when everything fails, up to the error of its source. -/
theorem every_live_diff_is_served_sample :
    let ts : List (Address × Unit) := [(default, ())]
    let w : Watcher Unit Unit := .start (Registry.ofList ts) ()
    let nobody : Watcher Unit Unit := .start (Registry.ofList []) ()
    let d : StoredDiff := ⟨1, ⟨default, default, 10, default, default⟩⟩
    let events : List WatchEvent :=
      [.live (.ok d), .tick, .live (.ok { d with id := 2 }), .live (.error .duplicateDiff),
        .live (.ok d)]
    ts ≠ [] ∧ (w.calls failing 3 events).filterMap WatchCall.marked? = [1, 2] ∧
      (w.run failing 3 events).ended = some (.error (.source .duplicateDiff)) ∧
      nobody.run failing 3 events = nobody := by
  intro ts w nobody d events
  have hts : ts ≠ [] := List.cons_ne_nil _ _
  obtain ⟨-, hmarked, hended⟩ := (every_live_diff_is_served failing 3 ts () events).2 hts
  obtain ⟨-, hnobody, -⟩ := (every_live_diff_is_served failing 3 [] () events).1 rfl
  exact ⟨hts, hmarked, hended, hnobody⟩

end SlotIndex
