import SlotIndex.Proofs.Backfill.Contribution
import SlotIndex.Proofs.Slot.History
import SlotIndex.ValueLoad

/-!
# Which values are loaded

A run that loads current values goes through the transformers in their order and through the keys of
each in ascending order. All calls that it makes are recorded with their answers, so that it can be said
which slots are read and offered when any of the calls may fail.

* `KeyTable`, `ValueSource.listing`: the known keys come out of key tables.
* `ValueCall`, `ValueSource.recording`: all calls are recorded; `forget_run`: this changes nothing else.
* `ReadSlot`, `slotsOf`: slots that have been read, and those that are to be read after loads.
* `Ends`: calls of which none fails but the last one; `Covers`: what the calls of a part of a run do,
  with `Covers.append` for two parts.
* `covers_loadKeys`, `covers_loadAll`.
* **`loads_what_is_known`**.
-/

namespace SlotIndex

variable {σ T α : Type}

/-! ## Key tables -/

/-- The key table of a transformer: what it holds, and how it is loaded. -/
structure KeyTable (σ : Type) where
  held : σ → Lookup
  load : σ → Loaded × σ

namespace KeyTable

/-- The list of all keys, after a load. -/
def keys (table : KeyTable σ) (world : σ) : Except StorageError (List Word) × σ :=
  let loaded := table.load world
  (((table.held world).list loaded.1).result, loaded.2)

variable {table : KeyTable σ} {world behind : σ}

theorem keys_of_error {e : StorageError} (h : table.load world = (.error e, behind)) :
    table.keys world = (.error e, behind) := by
  simp only [keys, h, Lookup.list]

theorem keys_of_loaded {loaded : Table Word Metadata} (h : table.load world = (.ok loaded, behind)) :
    table.keys world = (.ok (Lookup.ofLoaded loaded).keys, behind) := by
  simp only [keys, h, Lookup.list]

end KeyTable

/-- The keys are listed by key tables; a transformer need not have one. -/
def ValueSource.listing (c : ValueSource σ T) (tables : T → Option (KeyTable σ)) : ValueSource σ T where
  address := c.address
  keys t := (tables t).map KeyTable.keys
  blockHash := c.blockHash
  storageAt := c.storageAt
  store := c.store

/-! ## Records -/

theorem errorOf?_eq_some {r : Except StorageError α} {e : StorageError} :
    errorOf? r = some e ↔ r = .error e := by
  cases r <;> simp [errorOf?]

/-- A call of a run, with its answer. -/
inductive ValueCall (T : Type) where
  | blockHash (height : UInt64) (answer : Except StorageError Word)
  | load (t : T) (answer : Loaded)
  | storageAt (address : Address) (key : Word) (height : UInt64) (answer : Except StorageError Word)
  | store (d : Diff) (answer : Except StorageError Unit)

/-- A value that has been read, or a diff that has been offered. -/
inductive Exchange where
  | read (address : Address) (key : Word) (height : UInt64) (value : Word)
  | offer (d : Diff)

namespace ValueCall

/-- The error that a call is answered with. -/
def failure? : ValueCall T → Option StorageError
  | .blockHash _ answer => errorOf? answer
  | .load _ answer => errorOf? answer
  | .storageAt _ _ _ answer => errorOf? answer
  | .store _ answer => errorOf? answer

/-- The load of a key table. -/
def load? : ValueCall T → Option (T × Loaded)
  | .load t answer => some (t, answer)
  | _ => none

/-- The value that is read, or the diff that is offered, whether it is stored or not. -/
def exchange? : ValueCall T → Option Exchange
  | .storageAt address key height (.ok value) => some (.read address key height value)
  | .store d _ => some (.offer d)
  | _ => none

end ValueCall

/-- Calls that are recorded, latest last, behind what happens. -/
abbrev Recorded (σ T : Type) := σ × List (ValueCall T)

/-- The list of all keys, with the load recorded. -/
def KeyTable.recordedKeys (table : KeyTable σ) (t : T) (s : Recorded σ T) :
    Except StorageError (List Word) × Recorded σ T :=
  let answer := table.keys s.1
  (answer.1, answer.2, s.2 ++ [.load t (table.load s.1).1])

/-- Every call is recorded. -/
def ValueSource.recording (c : ValueSource σ T) (tables : T → Option (KeyTable σ)) :
    ValueSource (Recorded σ T) T where
  address := c.address
  keys t := (tables t).map fun table => table.recordedKeys t
  blockHash height s :=
    let r := c.blockHash height s.1
    (r.1, r.2, s.2 ++ [.blockHash height r.1])
  storageAt address key height s :=
    let r := c.storageAt address key height s.1
    (r.1, r.2, s.2 ++ [.storageAt address key height r.1])
  store d s :=
    let r := c.store d s.1
    (r.1, r.2, s.2 ++ [.store d r.1])

theorem ValueSource.blockHash_recording (c : ValueSource σ T) (tables : T → Option (KeyTable σ))
    (height : UInt64) (s : Recorded σ T) :
    (c.recording tables).blockHash height s = ((c.blockHash height s.1).1, (c.blockHash height s.1).2,
      s.2 ++ [.blockHash height (c.blockHash height s.1).1]) :=
  rfl

theorem ValueSource.storageAt_recording (c : ValueSource σ T) (tables : T → Option (KeyTable σ))
    (address : Address) (key : Word) (height : UInt64) (s : Recorded σ T) :
    (c.recording tables).storageAt address key height s =
      ((c.storageAt address key height s.1).1, (c.storageAt address key height s.1).2,
        s.2 ++ [.storageAt address key height (c.storageAt address key height s.1).1]) :=
  rfl

namespace ValueLoad

/-! ## Turns -/

section Turns

variable {c : ValueSource σ T} {hash : Word} {height : UInt64} {total : Nat} {t : T} {ts : List T}
  {keys : σ → Except StorageError (List Word) × σ} {ks : List Word} {world behind after : σ}
  {e : StorageError}

theorem loadKeys_of_error {address : Address} {key : Word}
    (h : loadKey c address hash height key world = (.error e, behind)) :
    loadKeys c address hash height (key :: ks) world = (.error e, behind) := by
  simp only [loadKeys, h]

theorem loadKeys_of_ok {address : Address} {key : Word}
    (h : loadKey c address hash height key world = (.ok (), behind)) :
    loadKeys c address hash height (key :: ks) world = loadKeys c address hash height ks behind := by
  simp only [loadKeys, h]

theorem loadAll_of_none (h : c.keys t = none) :
    loadAll c hash height total (t :: ts) world = loadAll c hash height total ts world := by
  simp only [loadAll, h]

theorem loadAll_of_unlisted (h : c.keys t = some keys) (herror : keys world = (.error e, behind)) :
    loadAll c hash height total (t :: ts) world = (.error e, behind) := by
  simp only [loadAll, h, herror]

theorem loadAll_of_failed (h : c.keys t = some keys) (hok : keys world = (.ok ks, behind))
    (herror : loadKeys c (c.address t) hash height ks behind = (.error e, after)) :
    loadAll c hash height total (t :: ts) world = (.error e, after) := by
  simp only [loadAll, h, hok, herror]

theorem loadAll_of_read (h : c.keys t = some keys) (hok : keys world = (.ok ks, behind))
    (hread : loadKeys c (c.address t) hash height ks behind = (.ok (), after)) :
    loadAll c hash height total (t :: ts) world =
      loadAll c hash height (total + ks.length) ts after := by
  simp only [loadAll, h, hok, hread]

end Turns

/-! ## A record changes nothing -/

/-- A result and the world behind it, without the record. -/
def forget (r : Except StorageError α × Recorded σ T) : Except StorageError α × σ :=
  (r.1, r.2.1)

section Forget

variable (c : ValueSource σ T) (tables : T → Option (KeyTable σ))

theorem forget_loadKey (address : Address) (hash : Word) (height : UInt64) (key : Word)
    (s : Recorded σ T) :
    forget (loadKey (c.recording tables) address hash height key s) =
      loadKey (c.listing tables) address hash height key s.1 := by
  simp only [loadKey, ValueSource.recording, ValueSource.listing]
  rcases c.storageAt address key height s.1 with ⟨_ | value, world⟩ <;> rfl

theorem forget_loadKeys (address : Address) (hash : Word) (height : UInt64) (keys : List Word)
    (s : Recorded σ T) :
    forget (loadKeys (c.recording tables) address hash height keys s) =
      loadKeys (c.listing tables) address hash height keys s.1 := by
  induction keys generalizing s with
  | nil => rfl
  | cons key keys ih =>
    rw [loadKeys, loadKeys, ← forget_loadKey]
    rcases loadKey (c.recording tables) address hash height key s with ⟨_ | _, s⟩
    · rfl
    · exact ih s

theorem forget_loadAll (hash : Word) (height : UInt64) (ts : List T) (total : Nat) (s : Recorded σ T) :
    forget (loadAll (c.recording tables) hash height total ts s) =
      loadAll (c.listing tables) hash height total ts s.1 := by
  induction ts generalizing total s with
  | nil => rfl
  | cons t ts ih =>
    cases htable : tables t with
    | none =>
      have hnone : (c.listing tables).keys t = none := congrArg (Option.map _) htable
      have hnone' : (c.recording tables).keys t = none := congrArg (Option.map _) htable
      rw [loadAll_of_none hnone, loadAll_of_none hnone']
      exact ih total s
    | some table =>
      have hsome : (c.listing tables).keys t = some table.keys := congrArg (Option.map _) htable
      have hsome' : (c.recording tables).keys t = some (table.recordedKeys t) :=
        congrArg (Option.map _) htable
      rcases hkeys : table.keys s.1 with ⟨e | ks, world⟩
      · have hkeys' : table.recordedKeys t s = (.error e, world, s.2 ++ [.load t (table.load s.1).1]) := by
          simp only [KeyTable.recordedKeys, hkeys]
        rw [loadAll_of_unlisted hsome hkeys, loadAll_of_unlisted hsome' hkeys']
        rfl
      · have hkeys' : table.recordedKeys t s = (.ok ks, world, s.2 ++ [.load t (table.load s.1).1]) := by
          simp only [KeyTable.recordedKeys, hkeys]
        have hread := forget_loadKeys c tables (c.address t) hash height ks
          (world, s.2 ++ [.load t (table.load s.1).1])
        rcases hread' : loadKeys (c.recording tables) (c.address t) hash height ks
          (world, s.2 ++ [.load t (table.load s.1).1]) with ⟨e | _, s'⟩
        · rw [hread'] at hread
          rw [loadAll_of_failed hsome hkeys hread.symm, loadAll_of_failed hsome' hkeys' hread']
          rfl
        · rw [hread'] at hread
          rw [loadAll_of_read hsome hkeys hread.symm, loadAll_of_read hsome' hkeys' hread']
          exact ih _ s'

/-- A run that is recorded does what the run itself does. -/
theorem forget_run (ts : List T) (height : UInt64) (s : Recorded σ T) :
    forget (run (c.recording tables) ts height s) = run (c.listing tables) ts height s.1 := by
  have hblock : (c.listing tables).blockHash height s.1 = c.blockHash height s.1 := rfl
  rw [run, run, hblock, ValueSource.blockHash_recording]
  rcases c.blockHash height s.1 with ⟨_ | hash, world⟩
  · rfl
  · exact forget_loadAll c tables hash height ts 0 _

end Forget

/-! ## What the calls of a part of a run do -/

/-- The transformers that have a key table. -/
def listed (tables : T → Option (KeyTable σ)) (ts : List T) : List T :=
  ts.filter fun t => (tables t).isSome

/-- A slot that has been read, with its value. -/
structure ReadSlot (T : Type) where
  transformer : T
  key : Word
  value : Word

/-- The slot without its value. -/
def ReadSlot.slot (r : ReadSlot T) : T × Word := (r.transformer, r.key)

/-- The slots that are to be read after loads: the loaded keys of each transformer, in ascending order as
`Lookup.shows_ofLoaded` says. -/
def slotsOf (loads : List (T × Loaded)) : List (T × Word) :=
  loads.flatMap fun l =>
    match l.2 with
    | .error _ => []
    | .ok loaded => (Lookup.ofLoaded loaded).keys.map fun key => (l.1, key)

theorem slotsOf_append (loads more : List (T × Loaded)) :
    slotsOf (loads ++ more) = slotsOf loads ++ slotsOf more :=
  List.flatMap_append

theorem slotsOf_loaded (t : T) (loaded : Table Word Metadata) :
    slotsOf [(t, .ok loaded)] = (Lookup.ofLoaded loaded).keys.map fun key => (t, key) :=
  List.append_nil _

/-- The diff that is offered for a slot. -/
def ReadSlot.diff (c : ValueSource σ T) (hash : Word) (height : UInt64) (r : ReadSlot T) : Diff :=
  ⟨(c.address r.transformer).hash, hash, height, r.key, r.value⟩

/-- What is exchanged for a slot: its value is read, then the diff with this value is offered. -/
def exchanges (c : ValueSource σ T) (hash : Word) (height : UInt64) (r : ReadSlot T) : List Exchange :=
  [.read (c.address r.transformer) r.key height r.value, .offer (r.diff c hash height)]

/-- How calls end: none of them has failed, or the last one has and no other. -/
inductive Ends : Option StorageError → List (ValueCall T) → Prop
  | untroubled {calls : List (ValueCall T)} (h : ∀ call ∈ calls, call.failure? = none) :
      Ends none calls
  | failed {front : List (ValueCall T)} {last : ValueCall T} {e : StorageError}
      (h : ∀ call ∈ front, call.failure? = none) (hlast : last.failure? = some e) :
      Ends (some e) (front ++ [last])

namespace Ends

variable {calls later : List (ValueCall T)} {failed : Option StorageError}

theorem of_none (h : Ends none calls) : ∀ call ∈ calls, call.failure? = none := by
  cases h with
  | untroubled h => exact h

theorem of_some {e : StorageError} (h : Ends (some e) calls) :
    ∃ front last, calls = front ++ [last] ∧ last.failure? = some e := by
  cases h with
  | failed _ hlast => exact ⟨_, _, rfl, hlast⟩

theorem singleton (call : ValueCall T) : Ends call.failure? [call] := by
  cases h : call.failure? with
  | none => exact .untroubled (List.forall_mem_singleton.2 h)
  | some e =>
    rw [← List.nil_append [call]]
    exact .failed (fun _ hmem => absurd hmem List.not_mem_nil) h

theorem append (h : Ends none calls) (h' : Ends failed later) : Ends failed (calls ++ later) := by
  cases h' with
  | untroubled hlater => exact .untroubled (List.forall_mem_append.2 ⟨h.of_none, hlater⟩)
  | failed hlater hlast =>
    rw [← List.append_assoc]
    exact .failed (List.forall_mem_append.2 ⟨h.of_none, hlater⟩) hlast

/-- Behind a call that has failed there is none. -/
theorem eq_nil_of_failure {front back : List (ValueCall T)} {call : ValueCall T} {e : StorageError}
    (h : Ends failed calls) (hcalls : calls = front ++ call :: back) (hcall : call.failure? = some e) :
    back = [] ∧ failed = some e := by
  cases h with
  | untroubled h =>
    have hnone := h call (hcalls ▸ List.mem_append_right _ List.mem_cons_self)
    exact absurd (hcall.symm.trans hnone) (Option.some_ne_none e)
  | @failed before last e' h hlast =>
    rcases List.eq_nil_or_concat back with rfl | ⟨middle, x, rfl⟩
    · have hlast_eq := (List.append_inj' hcalls rfl).2
      cases hlast_eq
      exact ⟨rfl, hlast.symm.trans hcall⟩
    · have hsplit : before ++ [last] = (front ++ call :: middle) ++ [x] := by
        rw [hcalls, List.append_assoc, List.cons_append, List.concat_eq_append]
      have hbefore : before = front ++ call :: middle := (List.append_inj' hsplit rfl).1
      have hnone := h call (hbefore ▸ List.mem_append_right _ List.mem_cons_self)
      exact absurd (hcall.symm.trans hnone) (Option.some_ne_none e)

end Ends

/-- What a part of a run does that is to read slots: it exchanges what it must for the slots that it has
read, which are the first ones, and all of them if no call has failed. -/
structure Covers (c : ValueSource σ T) (hash : Word) (height : UInt64) (slots : List (T × Word))
    (failed : Option StorageError) (done : List (ReadSlot T)) (calls : List (ValueCall T)) : Prop where
  exchanged : calls.filterMap ValueCall.exchange? = done.flatMap (exchanges c hash height)
  first : done.map ReadSlot.slot <+: slots
  all : failed = none → done.map ReadSlot.slot = slots
  ends : Ends failed calls

section Covers

variable {c : ValueSource σ T} {hash : Word} {height : UInt64} {slots more : List (T × Word)}
  {failed : Option StorageError} {done next : List (ReadSlot T)} {calls later : List (ValueCall T)}

theorem Covers.append (h : Covers c hash height slots none done calls)
    (h' : Covers c hash height more failed next later) :
    Covers c hash height (slots ++ more) failed (done ++ next) (calls ++ later) where
  exchanged := by rw [List.filterMap_append, h.exchanged, h'.exchanged, List.flatMap_append]
  first := by
    rw [List.map_append, h.all rfl]
    exact (List.prefix_append_right_inj slots).2 h'.first
  all hfailed := by rw [List.map_append, h.all rfl, h'.all hfailed]
  ends := h.ends.append h'.ends

theorem Covers.of_error {e : StorageError} (h : Covers c hash height slots (some e) done calls) :
    Covers c hash height (slots ++ more) (some e) done calls where
  exchanged := h.exchanged
  first := h.first.trans (List.prefix_append slots more)
  all hfailed := absurd hfailed (Option.some_ne_none e)
  ends := h.ends

/-- A call for which nothing is exchanged. -/
theorem Covers.of_call {call : ValueCall T} (h : call.exchange? = none)
    (hfailed : call.failure? = failed) : Covers c hash height [] failed [] [call] where
  exchanged := by rw [List.filterMap_cons_none h]; rfl
  first := List.prefix_refl []
  all _ := rfl
  ends := hfailed ▸ .singleton call

/-- A value that is read and offered, with any answer to the offer. -/
theorem Covers.of_reading (r : ReadSlot T) (answer : Except StorageError Unit) :
    Covers c hash height [r.slot] (errorOf? answer) [r]
      [.storageAt (c.address r.transformer) r.key height (.ok r.value),
        .store (r.diff c hash height) answer] where
  exchanged := rfl
  first := List.prefix_refl _
  all _ := rfl
  ends := by
    have hread : Ends none [(.storageAt (c.address r.transformer) r.key height (.ok r.value) : ValueCall T)] :=
      .untroubled (List.forall_mem_singleton.2 rfl)
    exact hread.append (.singleton (.store (r.diff c hash height) answer))

end Covers

section Runs

variable (c : ValueSource σ T) (tables : T → Option (KeyTable σ)) (hash : Word) (height : UInt64)

theorem covers_loadKey (t : T) (key : Word) (s : Recorded σ T) :
    let r := loadKey (c.recording tables) (c.address t) hash height key s
    ∃ done calls, r.2.2 = s.2 ++ calls ∧ calls.filterMap ValueCall.load? = [] ∧
      Covers c hash height [(t, key)] (errorOf? r.1) done calls := by
  rw [loadKey, ValueSource.storageAt_recording]
  rcases c.storageAt (c.address t) key height s.1 with ⟨e | value, world⟩
  · have hcovers : Covers c hash height [] (some e) []
        [.storageAt (c.address t) key height (.error e)] := .of_call rfl rfl
    exact ⟨[], _, rfl, rfl, hcovers.of_error⟩
  · exact ⟨[⟨t, key, value⟩], _, List.append_assoc s.2 _ _, rfl, .of_reading ⟨t, key, value⟩ _⟩

/-- The keys of a transformer are read in their order. -/
theorem covers_loadKeys (t : T) (keys : List Word) (s : Recorded σ T) :
    let r := loadKeys (c.recording tables) (c.address t) hash height keys s
    ∃ done calls, r.2.2 = s.2 ++ calls ∧ calls.filterMap ValueCall.load? = [] ∧
      Covers c hash height (keys.map fun key => (t, key)) (errorOf? r.1) done calls := by
  induction keys generalizing s with
  | nil =>
    refine ⟨[], [], (List.append_nil s.2).symm, rfl, rfl, List.prefix_refl [], fun _ => rfl, ?_⟩
    exact .untroubled fun _ hmem => absurd hmem List.not_mem_nil
  | cons key keys ih =>
    obtain ⟨done, calls, hcalls, hloads, hcovers⟩ := covers_loadKey c tables hash height t key s
    rcases hkey : loadKey (c.recording tables) (c.address t) hash height key s with ⟨e | _, s'⟩
    · rw [hkey] at hcalls hcovers
      rw [loadKeys_of_error hkey]
      exact ⟨done, calls, hcalls, hloads, hcovers.of_error⟩
    · rw [hkey] at hcalls hcovers
      rw [loadKeys_of_ok hkey]
      obtain ⟨next, later, hlater, hloads', hcovers'⟩ := ih s'
      refine ⟨done ++ next, calls ++ later, ?_, ?_, hcovers.append hcovers'⟩
      · rw [hlater, hcalls, List.append_assoc]
      · rw [List.filterMap_append, hloads, hloads', List.append_nil]

/-- The keys that a table has loaded are read. -/
theorem covers_loaded (t : T) (loaded : Table Word Metadata) (s : Recorded σ T) (world : σ) :
    let r := loadKeys (c.recording tables) (c.address t) hash height (Lookup.ofLoaded loaded).keys
      (world, s.2 ++ [.load t (.ok loaded)])
    ∃ done calls, r.2.2 = s.2 ++ calls ∧ calls.filterMap ValueCall.load? = [(t, .ok loaded)] ∧
      Covers c hash height (slotsOf [(t, .ok loaded)]) (errorOf? r.1) done calls := by
  intro r
  obtain ⟨done, calls, hcalls, hloads, hcovers⟩ := covers_loadKeys c tables hash height t
    (Lookup.ofLoaded loaded).keys (world, s.2 ++ [.load t (.ok loaded)])
  have hload : Covers c hash height [] none [] [.load t (.ok loaded)] := .of_call rfl rfl
  refine ⟨done, [.load t (.ok loaded)] ++ calls, ?_, ?_, slotsOf_loaded t loaded ▸ hload.append hcovers⟩
  · rw [hcalls, List.append_assoc]
  · rw [List.filterMap_append, hloads]
    rfl

/-- The transformers are loaded in their order, and the loaded keys of each are read. -/
theorem covers_loadAll (ts : List T) (total : Nat) (s : Recorded σ T) :
    let r := loadAll (c.recording tables) hash height total ts s
    ∃ done calls loads, r.2.2 = s.2 ++ calls ∧ calls.filterMap ValueCall.load? = loads ∧
      loads.map Prod.fst <+: listed tables ts ∧
      Covers c hash height (slotsOf loads) (errorOf? r.1) done calls ∧
      ∀ n, r.1 = .ok n → loads.map Prod.fst = listed tables ts ∧ n = total + (slotsOf loads).length := by
  induction ts generalizing total s with
  | nil =>
    refine ⟨[], [], [], (List.append_nil s.2).symm, rfl, List.prefix_refl _,
      ⟨rfl, List.prefix_refl [], fun _ => rfl, ?_⟩, fun n hn => ⟨rfl, ?_⟩⟩
    · exact .untroubled fun _ hmem => absurd hmem List.not_mem_nil
    · exact (Except.ok.inj hn).symm
  | cons t ts ih =>
    cases htable : tables t with
    | none =>
      have hnone : (c.recording tables).keys t = none := congrArg (Option.map _) htable
      have hlisted : listed tables (t :: ts) = listed tables ts :=
        List.filter_cons_of_neg (by rw [htable]; exact Bool.false_ne_true)
      rw [loadAll_of_none hnone, hlisted]
      exact ih total s
    | some table =>
      have hsome : (c.recording tables).keys t = some (table.recordedKeys t) :=
        congrArg (Option.map _) htable
      have hlisted : listed tables (t :: ts) = t :: listed tables ts :=
        List.filter_cons_of_pos (by rw [htable]; rfl)
      rw [hlisted]
      rcases hload : table.load s.1 with ⟨e | loaded, world⟩
      · have hkeys : table.recordedKeys t s = (.error e, world, s.2 ++ [.load t (.error e)]) := by
          simp only [KeyTable.recordedKeys, KeyTable.keys_of_error hload, hload]
        rw [loadAll_of_unlisted hsome hkeys]
        refine ⟨[], [.load t (.error e)], [(t, .error e)], rfl, rfl, ?_, .of_call rfl rfl, fun n hn => ?_⟩
        · exact (List.prefix_cons_inj t).2 List.nil_prefix
        · cases hn
      · have hkeys : table.recordedKeys t s =
            (.ok (Lookup.ofLoaded loaded).keys, world, s.2 ++ [.load t (.ok loaded)]) := by
          simp only [KeyTable.recordedKeys, KeyTable.keys_of_loaded hload, hload]
        obtain ⟨done, calls, hcalls, hloads, hcovers⟩ :=
          covers_loaded c tables hash height t loaded s world
        rcases hread : loadKeys (c.recording tables) (c.address t) hash height
          (Lookup.ofLoaded loaded).keys (world, s.2 ++ [.load t (.ok loaded)]) with ⟨e | _, s'⟩
        · rw [hread] at hcalls hcovers
          rw [loadAll_of_failed hsome hkeys hread]
          refine ⟨done, calls, _, hcalls, hloads, ?_, hcovers, fun n hn => ?_⟩
          · exact (List.prefix_cons_inj t).2 List.nil_prefix
          · cases hn
        · rw [hread] at hcalls hcovers
          rw [loadAll_of_read hsome hkeys hread]
          obtain ⟨next, later, loads, hlater, hloads', hprefix, hcovers', hok⟩ :=
            ih (total + (Lookup.ofLoaded loaded).keys.length) s'
          refine ⟨done ++ next, calls ++ later, [(t, .ok loaded)] ++ loads, ?_, ?_, ?_,
            slotsOf_append _ loads ▸ hcovers.append hcovers', fun n hn => ?_⟩
          · rw [hlater, hcalls, List.append_assoc]
          · rw [List.filterMap_append, hloads, hloads']
          · exact (List.prefix_cons_inj t).2 hprefix
          · obtain ⟨hall, hn⟩ := hok n hn
            refine ⟨congrArg (List.cons t) hall, ?_⟩
            rw [hn, slotsOf_append, slotsOf_loaded, List.length_append, List.length_map, Nat.add_assoc]

/-- The block is asked for first, and then the transformers are loaded. -/
theorem covers_run (ts : List T) (s : Recorded σ T) :
    let r := run (c.recording tables) ts height s
    ∃ answer rest hash done loads, r.2.2 = s.2 ++ .blockHash height answer :: rest ∧
      (done ≠ [] → answer = .ok hash) ∧
      (.blockHash height answer :: rest).filterMap ValueCall.load? = loads ∧
      loads.map Prod.fst <+: listed tables ts ∧
      Covers c hash height (slotsOf loads) (errorOf? r.1) done (.blockHash height answer :: rest) ∧
      ∀ n, r.1 = .ok n → loads.map Prod.fst = listed tables ts ∧ n = (slotsOf loads).length := by
  rw [run, ValueSource.blockHash_recording]
  rcases c.blockHash height s.1 with ⟨e | hash, world⟩
  · refine ⟨.error e, [], default, [], [], rfl, fun hdone => absurd rfl hdone, rfl, List.nil_prefix,
      .of_call rfl rfl, fun n hn => ?_⟩
    cases hn
  · obtain ⟨done, calls, loads, hcalls, hloads, hprefix, hcovers, hok⟩ := covers_loadAll c tables hash
      height ts 0 (world, s.2 ++ [.blockHash height (.ok hash)])
    have hblock : Covers c hash height [] none [] [.blockHash height (.ok hash)] := .of_call rfl rfl
    refine ⟨.ok hash, calls, hash, done, loads, ?_, fun _ => rfl, hloads, hprefix, hblock.append hcovers,
      fun n hn => ?_⟩
    · exact hcalls.trans (List.append_assoc _ _ _)
    · obtain ⟨hall, hn⟩ := hok n hn
      exact ⟨hall, hn.trans (Nat.zero_add _)⟩

end Runs

/-- **What is known is loaded.** A run asks for the block, loads the key tables of the transformers in
their order, and goes through their slots, each transformer's in ascending order of the keys. Of each it
reads the value and offers it. Whatever the loads yield that are not made, the slots that it goes through
are the first ones, and all of them if it succeeds, with their number as its result. If it succeeds no
call has failed, and a call that has failed is the last one and gives the result. -/
theorem loads_what_is_known (c : ValueSource σ T) (tables : T → Option (KeyTable σ)) (ts : List T)
    (height : UInt64) (world : σ) :
    let r := run (c.recording tables) ts height (world, [])
    let calls := r.2.2
    let loads := calls.filterMap ValueCall.load?
    run (c.listing tables) ts height world = (r.1, r.2.1) ∧
    (∃ answer rest hash done, calls = .blockHash height answer :: rest ∧
      (done ≠ [] → answer = .ok hash) ∧
      calls.filterMap ValueCall.exchange? = done.flatMap (exchanges c hash height) ∧
      loads.map Prod.fst <+: listed tables ts ∧
      ∀ script, script.map Prod.fst = listed tables ts → loads <+: script →
        done.map ReadSlot.slot <+: slotsOf script ∧
        ∀ n, r.1 = .ok n → done.map ReadSlot.slot = slotsOf script ∧ n = (slotsOf script).length) ∧
    (∀ n, r.1 = .ok n → ∀ call ∈ calls, call.failure? = none) ∧
    (∀ e, r.1 = .error e → ∃ front last, calls = front ++ [last] ∧ last.failure? = some e) ∧
    ∀ front call back e, calls = front ++ call :: back → call.failure? = some e →
      back = [] ∧ r.1 = .error e := by
  intro r calls loads
  obtain ⟨answer, rest, hash, done, loads', hcalls, hhash, hloads, hprefix, hcovers, hok⟩ :=
    covers_run c tables height ts (world, [])
  have hcalls : calls = .blockHash height answer :: rest := hcalls
  rw [← hcalls] at hloads hcovers
  have hloads : loads = loads' := hloads
  subst hloads
  refine ⟨(forget_run c tables ts height (world, [])).symm,
    ⟨answer, rest, hash, done, hcalls, hhash, hcovers.exchanged, hprefix, ?_⟩, ?_, ?_, ?_⟩
  · rintro script hscript ⟨more, rfl⟩
    refine ⟨slotsOf_append loads more ▸ hcovers.first.trans (List.prefix_append _ _), fun n hn => ?_⟩
    obtain ⟨hall, hlength⟩ := hok n hn
    -- All transformers have been loaded, so there are no more loads.
    have hmore : more = [] := by
      rw [List.map_append, ← hall] at hscript
      exact List.map_eq_nil_iff.1 (List.append_right_eq_self.1 hscript)
    rw [hmore, List.append_nil]
    exact ⟨hcovers.all (by rw [hn]; rfl), hlength⟩
  · intro n hn
    have hends := hcovers.ends
    rw [hn] at hends
    exact hends.of_none
  · intro e he
    have hends := hcovers.ends
    rw [he] at hends
    exact hends.of_some
  · intro front call back e hsplit hcall
    obtain ⟨hback, hfailed⟩ := hcovers.ends.eq_nil_of_failure hsplit hcall
    exact ⟨hback, errorOf?_eq_some.1 hfailed⟩

/-- Every value is 7, and the diff table may refuse that of the key 5. -/
def sevens (refusing : Bool) : ValueSource Unit Bool where
  address _ := Address.ofBytes [1]
  keys _ := none
  blockHash _ _ := (.ok (Word.ofNat 9), ())
  storageAt _ _ _ _ := (.ok (Word.ofNat 7), ())
  store d _ := (if refusing = true ∧ d.key = Word.ofNat 5 then .error (.io "refused") else .ok (), ())

/-- Two keys, the higher one first. -/
def twoKeys : Table Word Metadata :=
  .ofList [(Word.ofNat 5, Lookup.sampleMetadata "five"), (Word.ofNat 3, Lookup.sampleMetadata "three")]

/-- One of two transformers has a key table. -/
def twoKeyTables (t : Bool) : Option (KeyTable Unit) :=
  if t then some ⟨fun _ => .empty, fun _ => (.ok twoKeys, ())⟩ else none

theorem keys_twoKeys : (Lookup.ofLoaded twoKeys).keys = [Word.ofNat 3, Word.ofNat 5] := by
  have hlower : ¬ Word.ofNat 5 ≤ Word.ofNat 3 := by decide
  change [Word.ofNat 5, Word.ofNat 3].mergeSort = _
  simp [List.mergeSort, hlower]

theorem run_sevens (refusing : Bool) :
    run ((sevens refusing).recording twoKeyTables) [false, true] 100 ((), []) =
      (if refusing then .error (.io "refused") else .ok 2, (),
        [.blockHash 100 (.ok (Word.ofNat 9)), .load true (.ok twoKeys),
          .storageAt (Address.ofBytes [1]) (Word.ofNat 3) 100 (.ok (Word.ofNat 7)),
          .store ⟨(Address.ofBytes [1]).hash, Word.ofNat 9, 100, Word.ofNat 3, Word.ofNat 7⟩ (.ok ()),
          .storageAt (Address.ofBytes [1]) (Word.ofNat 5) 100 (.ok (Word.ofNat 7)),
          .store ⟨(Address.ofBytes [1]).hash, Word.ofNat 9, 100, Word.ofNat 5, Word.ofNat 7⟩
            (if refusing then .error (.io "refused") else .ok ())]) := by
  let table : KeyTable Unit := ⟨fun _ => .empty, fun _ => (.ok twoKeys, ())⟩
  have hkeys : table.recordedKeys true ((), [.blockHash 100 (.ok (Word.ofNat 9))]) =
      (.ok [Word.ofNat 3, Word.ofNat 5], (),
        [.blockHash 100 (.ok (Word.ofNat 9)), .load true (.ok twoKeys)]) := by
    rw [← keys_twoKeys]
    rfl
  have hrun : run ((sevens refusing).recording twoKeyTables) [false, true] 100 ((), []) =
    loadAll ((sevens refusing).recording twoKeyTables) (Word.ofNat 9) 100 0 [true]
      ((), [.blockHash 100 (.ok (Word.ofNat 9))]) := rfl
  have hsome : ((sevens refusing).recording twoKeyTables).keys true = some (table.recordedKeys true) := rfl
  rw [hrun]
  cases refusing with
  | false => exact (loadAll_of_read hsome hkeys rfl).trans rfl
  | true => exact loadAll_of_failed hsome hkeys rfl

/-- Two slots are loaded; where the second value is refused, this is the last call and the result. -/
theorem loads_what_is_known_of_two :
    let r (refusing : Bool) := run ((sevens refusing).recording twoKeyTables) [false, true] 100 ((), [])
    (∃ done : List (ReadSlot Bool), done.map ReadSlot.slot = [(true, Word.ofNat 3), (true, Word.ofNat 5)] ∧
      (r false).2.2.filterMap ValueCall.exchange? =
        done.flatMap (exchanges (sevens false) (Word.ofNat 9) 100)) ∧
    (r false).1 = .ok 2 ∧ (∀ call ∈ (r false).2.2, call.failure? = none) ∧
    ∃ front last, (r true).2.2 = front ++ [last] ∧ last.failure? = some (.io "refused") ∧
      (r true).1 = .error (.io "refused") := by
  intro r
  have hok : (r false).1 = .ok 2 := congrArg Prod.fst (run_sevens false)
  have hcalls : (r false).2.2 = _ := congrArg (fun x => x.2.2) (run_sevens false)
  have hrefused : (r true).1 = .error (.io "refused") := congrArg Prod.fst (run_sevens true)
  obtain ⟨-, ⟨answer, rest, hash, done, hblock, hhash, hexchanges, -, hscript⟩, hall, -, -⟩ :=
    loads_what_is_known (sevens false) twoKeyTables [false, true] 100 ()
  obtain ⟨-, -, -, herror, hlast⟩ := loads_what_is_known (sevens true) twoKeyTables [false, true] 100 ()
  have hloads : (r false).2.2.filterMap ValueCall.load? <+: [(true, .ok twoKeys)] := by
    rw [hcalls]
    exact List.prefix_refl _
  have hdone : done.map ReadSlot.slot = [(true, Word.ofNat 3), (true, Word.ofNat 5)] := by
    rw [((hscript [(true, .ok twoKeys)] rfl hloads).2 2 hok).1, slotsOf_loaded, keys_twoKeys]
    rfl
  have hsome : done ≠ [] := by
    rintro rfl
    contradiction
  have hanswer : .blockHash 100 (.ok (Word.ofNat 9)) = ValueCall.blockHash 100 answer :=
    (List.cons.inj (hcalls.symm.trans hblock)).1
  cases hanswer
  cases hhash hsome
  obtain ⟨front, last, hsplit, hfailed⟩ := herror _ hrefused
  exact ⟨⟨done, hdone, hexchanges⟩, hok, hall 2 hok, front, last, hsplit, hfailed,
    (hlast front last [] _ hsplit hfailed).2⟩

end ValueLoad

end SlotIndex
