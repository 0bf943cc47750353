import SlotIndex.Proofs.Slot.Aliases

/-!
# The history of a key table

A key table is asked for keys and for the list of all keys, one call after the other, while every load
may yield another table or fail. Whatever has been asked before, a key that is known takes no load and
any other call takes one; a load that fails changes nothing, and one that succeeds replaces everything.

* `Lookup.Shows`: the table knows what a load has yielded, and nothing else; `shows_ofLoaded`.
* `Lookup.Call`, `Lookup.Reply`: the calls and what they are answered with.
* `Session`, `Session.call`, `Session.run`: a key table in use, with a script of loads.
* `Session.IsCurrent`: the table is that of the last load that has succeeded; `IsCurrent.run`.
* **`Session.call_of_history`**: what a call does after any history.
-/

namespace SlotIndex

namespace Lookup

/-! ## What a load leaves behind -/

/-- The table knows what a load has yielded, and nothing else. -/
structure Shows (s : Lookup) (loaded : Table Word Metadata) : Prop where
  known_iff : ∀ x, (s.known.get? x).isSome ↔ x ∈ loaded.keys ∨ ∃ k ∈ loaded.keys, k.hash = x
  metadata : ∀ x m, s.known.get? x = some m → ∃ e ∈ loaded.entries, (e.1 = x ∨ e.1.hash = x) ∧ e.2 = m
  keys_perm : s.keys.Perm loaded.keys
  ascending : s.keys.Pairwise fun v w => v.toNat < w.toNat

/-- The keys are listed in ascending order, each of them once. -/
theorem ascending_keys_ofLoaded (loaded : Table Word Metadata) :
    (ofLoaded loaded).keys.Pairwise fun v w => v.toNat < w.toNat := by
  have hperm : (ofLoaded loaded).keys.Perm loaded.keys := List.mergeSort_perm loaded.keys _
  have hnodup : (ofLoaded loaded).keys.Nodup := hperm.nodup_iff.2 loaded.nodup_keys
  have hsorted : (ofLoaded loaded).keys.Pairwise fun v w => decide (v ≤ w) = true := by
    refine List.pairwise_mergeSort ?_ ?_ loaded.keys
    · intro u v w huv hvw
      have huv : u.toNat ≤ v.toNat := of_decide_eq_true huv
      have hvw : v.toNat ≤ w.toNat := of_decide_eq_true hvw
      exact decide_eq_true (Nat.le_trans huv hvw)
    · intro v w
      rw [Bool.or_eq_true, decide_eq_true_eq, decide_eq_true_eq]
      exact Nat.le_total v.toNat w.toNat
  refine hsorted.imp₂ ?_ hnodup
  intro v w hle hne
  have hle : v.toNat ≤ w.toNat := of_decide_eq_true hle
  have hne : v.toNat ≠ w.toNat := fun heq => hne (Word.ext heq)
  omega

theorem shows_ofLoaded (loaded : Table Word Metadata) : (ofLoaded loaded).Shows loaded where
  known_iff x := by
    rw [isSome_get?_ofLoaded]
    simp only [isKnownAs_iff, Table.keys, List.mem_map]
    constructor
    · rintro ⟨e, he, hkey | hhash⟩
      · exact .inl ⟨e, he, hkey⟩
      · exact .inr ⟨e.1, ⟨e, he, rfl⟩, hhash⟩
    · rintro (⟨e, he, hkey⟩ | ⟨k, ⟨e, he, rfl⟩, hhash⟩)
      · exact ⟨e, he, .inl hkey⟩
      · exact ⟨e, he, .inr hhash⟩
  metadata x m h := by
    obtain ⟨e, he, hx, hm⟩ := exists_of_get?_ofLoaded h
    exact ⟨e, he, isKnownAs_iff.1 hx, hm⟩
  keys_perm := List.mergeSort_perm loaded.keys _
  ascending := ascending_keys_ofLoaded loaded

/-! ## Calls -/

/-- A call of a key table. -/
inductive Call where
  /-- The metadata of a key is asked for. -/
  | find (key : Word)
  /-- All keys are asked for. -/
  | list

/-- What a call is answered with. -/
inductive Reply where
  | metadata (result : Except StorageError Metadata)
  | keys (result : Except StorageError (List Word))

/-- Whether a call has to load: every one does but the call for a key that is known. -/
def Call.loads (s : Lookup) : Call → Prop
  | .find key => s.known.get? key = none
  | .list => True

/-- The reply to a call whose load has failed. -/
def Call.refusal (e : StorageError) : Call → Reply
  | .find _ => .metadata (.error e)
  | .list => .keys (.error e)

/-- The reply to a call out of a new table. A key that is not in it is not found. -/
def Call.replyFrom (t : Lookup) : Call → Reply
  | .find key =>
    match t.known.get? key with
    | some m => .metadata (.ok m)
    | none => .metadata (.error (.keyNotFound key))
  | .list => .keys (.ok t.keys)

theorem find_of_error {s : Lookup} {key : Word} (h : s.known.get? key = none) (e : StorageError) :
    s.find (.error e) key = ⟨.error e, s, 1⟩ := by
  simp only [find, h]

theorem find_of_loaded {s : Lookup} {key : Word} (h : s.known.get? key = none)
    (loaded : Table Word Metadata) :
    s.find (.ok loaded) key =
      ⟨match (ofLoaded loaded).known.get? key with
        | some m => .ok m
        | none => .error (.keyNotFound key), ofLoaded loaded, 1⟩ := by
  simp only [find, h]
  cases (ofLoaded loaded).known.get? key <;> rfl

/-- A key table in use. -/
structure Session where
  table : Lookup
  /-- How often it has loaded. -/
  loads : Nat

namespace Session

def start : Session := ⟨empty, 0⟩

variable (script : Nat → Loaded)

/-- One call. The loads yield what a script says, one after the other. -/
def call (s : Session) : Call → Reply × Session
  | .find key =>
    let a := s.table.find (script s.loads) key
    (.metadata a.result, ⟨a.after, s.loads + a.loads⟩)
  | .list =>
    let a := s.table.list (script s.loads)
    (.keys a.result, ⟨a.after, s.loads + a.loads⟩)

def run (s : Session) (calls : List Call) : Session :=
  calls.foldl (fun s c => (s.call script c).2) s

variable {script} {s : Session}

theorem call_of_known {key : Word} {m : Metadata} (h : s.table.known.get? key = some m) :
    s.call script (.find key) = (.metadata (.ok m), s) := by
  simp only [call, find_of_known h]
  rfl

theorem call_of_error {c : Call} (hc : c.loads s.table) {e : StorageError}
    (he : script s.loads = .error e) :
    s.call script c = (c.refusal e, ⟨s.table, s.loads + 1⟩) := by
  cases c with
  | find key =>
    rw [call, he, find_of_error hc]
    rfl
  | list =>
    rw [call, he]
    rfl

theorem call_of_loaded {c : Call} (hc : c.loads s.table) {loaded : Table Word Metadata}
    (hok : script s.loads = .ok loaded) :
    s.call script c = (c.replyFrom (ofLoaded loaded), ⟨ofLoaded loaded, s.loads + 1⟩) := by
  cases c with
  | find key =>
    rw [call, hok, find_of_loaded hc, Call.replyFrom]
    cases (ofLoaded loaded).known.get? key <;> rfl
  | list =>
    rw [call, hok]
    rfl

/-! ## Histories -/

variable (script) in
/-- The table is that of the last load that has succeeded; if none has, nothing is known. -/
def IsCurrent (s : Session) : Prop :=
  (s.table = empty ∧ ∀ i < s.loads, ∃ e, script i = .error e) ∨
    ∃ i < s.loads, ∃ loaded, script i = .ok loaded ∧ s.table.Shows loaded ∧
      ∀ j, i < j → j < s.loads → ∃ e, script j = .error e

theorem isCurrent_start : start.IsCurrent script :=
  .inl ⟨rfl, fun _ hi => absurd hi (Nat.not_lt_zero _)⟩

/-- One more load that has failed changes nothing. -/
theorem IsCurrent.of_error (h : s.IsCurrent script) {e : StorageError}
    (he : script s.loads = .error e) : IsCurrent script ⟨s.table, s.loads + 1⟩ := by
  have hfailed : ∀ j, (j < s.loads → ∃ e, script j = .error e) → j < s.loads + 1 →
      ∃ e, script j = .error e := by
    intro j hj hlt
    by_cases hlast : j = s.loads
    · rw [hlast]
      exact ⟨e, he⟩
    · exact hj (by omega)
  rcases h with ⟨hempty, hnone⟩ | ⟨i, hi, loaded, hok, hshows, hlater⟩
  · exact .inl ⟨hempty, fun j => hfailed j (hnone j)⟩
  · exact .inr ⟨i, Nat.lt_succ_of_lt hi, loaded, hok, hshows, fun j hj => hfailed j (hlater j hj)⟩

theorem IsCurrent.call (h : s.IsCurrent script) (c : Call) :
    (s.call script c).2.IsCurrent script := by
  -- Only a call that loads can change the table, and then this load is the last one.
  by_cases hc : c.loads s.table
  · cases hload : script s.loads with
    | error e =>
      rw [call_of_error hc hload]
      exact h.of_error hload
    | ok loaded =>
      rw [call_of_loaded hc hload]
      refine .inr ⟨s.loads, Nat.lt_succ_self _, loaded, hload, shows_ofLoaded loaded, ?_⟩
      intro j hj hlt
      change j < s.loads + 1 at hlt
      omega
  · cases c with
    | list => exact absurd trivial hc
    | find key =>
      obtain ⟨m, hm⟩ := Option.ne_none_iff_exists'.1 hc
      rw [call_of_known hm]
      exact h

theorem IsCurrent.run (h : s.IsCurrent script) (calls : List Call) :
    (s.run script calls).IsCurrent script := by
  induction calls generalizing s with
  | nil => exact h
  | cons c calls ih => exact ih (h.call c)

variable (script)

/-- **A call after any history.** The table is that of the last load that has succeeded. A key that is
known is answered out of the table and nothing changes. Any other call makes exactly one load: if it
fails the reply is its error and the table stays as it is; if it succeeds the table shows this load and
nothing else, and the reply comes out of it. -/
theorem call_of_history (history : List Call) :
    let s := start.run script history
    s.IsCurrent script ∧
    (∀ key m, s.table.known.get? key = some m →
      s.call script (.find key) = (.metadata (.ok m), s)) ∧
    ∀ c, Call.loads s.table c →
      (∀ e, script s.loads = .error e →
        s.call script c = (c.refusal e, ⟨s.table, s.loads + 1⟩)) ∧
      ∀ loaded, script s.loads = .ok loaded →
        ∃ t, t.Shows loaded ∧ s.call script c = (c.replyFrom t, ⟨t, s.loads + 1⟩) := by
  intro s
  refine ⟨isCurrent_start.run history, fun key m => call_of_known, fun c hc => ⟨?_, ?_⟩⟩
  · intro e he
    exact call_of_error hc he
  · intro loaded hok
    exact ⟨ofLoaded loaded, shows_ofLoaded loaded, call_of_loaded hc hok⟩

/-- Loads of which the first one fails. -/
def sampleScript (i : Nat) : Loaded :=
  if i = 0 then .error (.io "loader down") else .ok sampleArray

/-- After the failed load nothing is known, and the next call loads again. -/
theorem call_of_history_after_failure :
    let s := start.run sampleScript [.find (Word.ofNat 0)]
    s.table = empty ∧ s.loads = 1 ∧
      ∃ t, t.Shows sampleArray ∧ s.call sampleScript .list = (.keys (.ok t.keys), ⟨t, 2⟩) := by
  intro s
  have hcall := (call_of_history sampleScript [.find (Word.ofNat 0)]).2.2 .list trivial
  exact ⟨rfl, rfl, hcall.2 sampleArray rfl⟩

end Session

end Lookup

end SlotIndex
