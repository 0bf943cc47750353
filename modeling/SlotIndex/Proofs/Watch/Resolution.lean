import SlotIndex.Proofs.Watch.Serving

/-!
# Remembered transformers

A watcher finds the transformer of a contract by hashing the registered addresses one by one, and remembers
what it finds under the hash. What it remembers is what it would find again, for nothing is registered while
it runs. So a hash resolves to the same transformer at all times, and if different addresses have different
hashes it is the one that has been registered last for the address.

* `Registry.Holds`: a registry after registrations, with its addresses in some order.
* `Registry.scan_eq_some`, `Registry.scan_eq_none`: what a scan finds, whatever the order is.
* `Registry.Faithful`: what is remembered is what would be found; `Registry.Faithful.resolve`.
* `Watcher.Reached`: a watcher after any number of diffs; `Watcher.reached_run`: so is one after a run.
* **`Watcher.resolves_to_last`**: what a hash resolves to, at any time.
-/

namespace SlotIndex

variable {σ T : Type}

/-! ## What a scan finds -/

/-- Different addresses have different hashes. -/
def HashesDiffer (addresses : List Address) : Prop :=
  ∀ a ∈ addresses, ∀ b ∈ addresses, a.hash = b.hash → a = b

instance (addresses : List Address) : Decidable (HashesDiffer addresses) :=
  inferInstanceAs (Decidable (∀ a ∈ addresses, ∀ b ∈ addresses, a.hash = b.hash → a = b))

namespace Registry

/-- A registry holds what has been registered, with its addresses in any order, and remembers nothing. -/
structure Holds (ts : List (Address × T)) (r : Registry T) : Prop where
  entries : r.transformers.entries.Perm (ofList ts).transformers.entries
  resolved : r.resolved = Table.empty

variable {ts : List (Address × T)} {r : Registry T} {account : Word} {t : T}

theorem Holds.mem_entries (h : r.Holds ts) {address : Address} :
    (address, t) ∈ r.transformers.entries ↔
      ∃ front back, ts = front ++ (address, t) :: back ∧ address ∉ back.map Prod.fst := by
  rw [h.entries.mem_iff, transformers_ofList, Table.mem_entries_iff, Table.get?_ofList_eq_some]

theorem Holds.mem_keys (h : r.Holds ts) {address : Address} :
    address ∈ r.transformers.keys ↔ address ∈ ts.map Prod.fst := by
  rw [Table.keys, (h.entries.map Prod.fst).mem_iff, transformers_ofList]
  exact Table.mem_keys_ofList

theorem scan_eq_none (h : r.Holds ts) : r.scan account = none ↔ ∀ e ∈ ts, e.1.hash ≠ account := by
  have hkeys : (∀ address ∈ r.transformers.keys, address.hash ≠ account) ↔
      ∀ address ∈ ts.map Prod.fst, address.hash ≠ account := by simp only [h.mem_keys]
  rw [Table.keys, List.forall_mem_map, List.forall_mem_map] at hkeys
  rw [← hkeys, scan, Option.map_eq_none_iff, List.find?_eq_none]
  simp only [decide_eq_true_eq, ne_eq]

/-- **What a scan finds** is the transformer that has been registered last for the address with the hash,
in whichever order the addresses are hashed. -/
theorem scan_eq_some (h : r.Holds ts) (hdiffer : HashesDiffer (ts.map Prod.fst)) :
    r.scan account = some t ↔ IsTransformerOf ts account t := by
  constructor
  · intro hscan
    obtain ⟨address, hmem, hhash⟩ := exists_entry_of_scan hscan
    obtain ⟨front, back, hts, hback⟩ := h.mem_entries.1 hmem
    exact ⟨front, address, back, hts, hhash, hback⟩
  · rintro ⟨front, address, back, hts, hhash, hback⟩
    have hmem : (address, t) ∈ r.transformers.entries := h.mem_entries.2 ⟨front, back, hts, hback⟩
    cases hscan : r.scan account with
    | none =>
      have he : (address, t) ∈ ts := by simp [hts]
      exact absurd hhash ((scan_eq_none h).1 hscan (address, t) he)
    | some found =>
      obtain ⟨address', hmem', hhash'⟩ := exists_entry_of_scan hscan
      have hkey : address ∈ ts.map Prod.fst := h.mem_keys.1 (List.mem_map_of_mem (f := Prod.fst) hmem)
      have hkey' : address' ∈ ts.map Prod.fst := h.mem_keys.1 (List.mem_map_of_mem (f := Prod.fst) hmem')
      -- No other address has this hash, and no address has two entries.
      obtain rfl := hdiffer address' hkey' address hkey (hhash'.trans hhash.symm)
      rw [Table.mem_entries_iff] at hmem hmem'
      exact hmem'.symm.trans hmem

/-! ## What is remembered -/

/-- What is remembered of a hash is what a scan would find. -/
def Faithful (r : Registry T) : Prop :=
  ∀ account t, r.resolved.get? account = some t → r.scan account = some t

theorem Holds.faithful (h : r.Holds ts) : r.Faithful := by
  intro account t hget
  rw [h.resolved] at hget
  contradiction

/-- Then a hash resolves to what a scan finds. -/
theorem Faithful.fst_resolve (h : r.Faithful) (account : Word) :
    (r.resolve account).1 = r.scan account := by
  rw [Registry.fst_resolve]
  cases hget : r.resolved.get? account with
  | none => rfl
  | some t => exact (h account t hget).symm

/-- To resolve a hash registers nothing. -/
theorem transformers_resolve (r : Registry T) (account : Word) :
    (r.resolve account).2.transformers = r.transformers := by
  unfold resolve
  split
  · rfl
  · split <;> rfl

theorem scan_resolve (r : Registry T) (account other : Word) :
    (r.resolve account).2.scan other = r.scan other := by
  rw [scan, transformers_resolve, scan]

/-- To resolve a hash leaves a faithful registry, whether or not the hash has been resolved before. -/
theorem Faithful.resolve (h : r.Faithful) (account : Word) : (r.resolve account).2.Faithful := by
  intro other t hget
  rw [scan_resolve, ← h.fst_resolve, ← resolve_resolve r account, Registry.fst_resolve, hget, Option.some_or]

end Registry

/-! ## A watcher at any time -/

namespace Watcher

section Reached

variable (c : Collaborators σ T) (maxAttempts : Nat)

/-- A watcher after any number of diffs, live or queued. In between the world may change without it, and it
may end. -/
inductive Reached (start : Watcher σ T) : Watcher σ T → Prop where
  | start : Reached start start
  | process {w : Watcher σ T} (h : Reached start w) (d : StoredDiff) (origin : DiffOrigin) :
    Reached start (w.process c maxAttempts d origin)
  | elsewhere {w : Watcher σ T} (h : Reached start w) (world : σ) (ended : Option (Except WatchError Unit)) :
    Reached start ⟨w.registry, world, ended⟩

variable {c maxAttempts} {start w : Watcher σ T}

theorem reached_foldl (h : Reached c maxAttempts start w) (ds : List StoredDiff) :
    Reached c maxAttempts start (ds.foldl (fun w d => w.process c maxAttempts d .queue) w) := by
  induction ds generalizing w with
  | nil => exact h
  | cons d ds ih => exact ih (h.process d .queue)

theorem reached_drain (h : Reached c maxAttempts start w) :
    Reached c maxAttempts start (w.drain c maxAttempts) := by
  unfold drain
  split
  · exact h.elsewhere _ _
  · exact reached_foldl (h.elsewhere _ _) _

theorem reached_step (h : Reached c maxAttempts start w) (e : WatchEvent) :
    Reached c maxAttempts start (w.step c maxAttempts e) := by
  unfold step
  split
  · exact h
  · cases e with
    | live item =>
      cases item with
      | ok d => exact h.process d .live
      | error e => exact h.elsewhere _ _
    | tick => exact reached_drain h
    | close | cancel => exact h.elsewhere _ _

theorem reached_run (h : Reached c maxAttempts start w) (events : List WatchEvent) :
    Reached c maxAttempts start (w.run c maxAttempts events) := by
  induction events generalizing w with
  | nil => exact h
  | cons e events ih => exact ih (reached_step h e)

/-- A watcher stays faithful, and a scan finds the same at all times. -/
theorem Reached.faithful (h : Reached c maxAttempts start w) (hstart : start.registry.Faithful) :
    w.registry.Faithful ∧ ∀ account, w.registry.scan account = start.registry.scan account := by
  induction h with
  | start => exact ⟨hstart, fun _ => rfl⟩
  | process h d origin ih =>
    exact ⟨ih.1.resolve _, fun account => (Registry.scan_resolve ..).trans (ih.2 account)⟩
  | elsewhere h world ended ih => exact ih

end Reached

/-- **What a hash resolves to.** Transformers have been registered, several of them perhaps for one address,
and the addresses have different hashes. Then whatever diffs a watcher has dealt with, everything that it
remembers of a hash is the transformer that has been registered last for the address with this hash, and a
hash resolves to this transformer, as if all addresses were hashed again, or to nothing if no address has
the hash. -/
theorem resolves_to_last (c : Collaborators σ T) (maxAttempts : Nat) {ts : List (Address × T)}
    (hdiffer : HashesDiffer (ts.map Prod.fst)) {r : Registry T} (hr : r.Holds ts) (world : σ)
    {w : Watcher σ T} (hw : Reached c maxAttempts (.start r world) w) :
    (∀ e ∈ w.registry.resolved.entries, IsTransformerOf ts e.1 e.2) ∧
    ∀ account, (w.registry.resolve account).1 = w.registry.scan account ∧
      (∀ t, (w.registry.resolve account).1 = some t ↔ IsTransformerOf ts account t) ∧
      ((w.registry.resolve account).1 = none ↔ ∀ e ∈ ts, e.1.hash ≠ account) := by
  obtain ⟨hfaithful, hscan⟩ := hw.faithful hr.faithful
  have hfound (account : Word) : w.registry.scan account = r.scan account := hscan account
  refine ⟨fun e he => ?_, fun account => ?_⟩
  · have hremembered := hfaithful e.1 e.2 (Table.get?_of_mem he)
    rwa [hfound, Registry.scan_eq_some hr hdiffer] at hremembered
  · rw [hfaithful.fst_resolve, hfound]
    exact ⟨rfl, fun t => Registry.scan_eq_some hr hdiffer, Registry.scan_eq_none hr⟩

/-- Two addresses with three transformers. -/
def thrice : List (Address × Nat) := [(default, 1), (.ofBytes [7], 2), (default, 3)]

/-- Their registry, the other way round. -/
def thriceRegistry : Registry Nat where
  transformers := ⟨[(.ofBytes [7], 2), (default, 3)], by decide⟩
  resolved := Table.empty

/-- Collaborators whose queue lists one diff. No key is known. -/
def listing (d : StoredDiff) : Collaborators Unit Nat where
  execute _ d _ := (.error (.keyNotFound d.diff.key), ())
  markChecked _ _ := (.ok (), ())
  add _ _ := (.ok (), ())
  delete _ _ := (.ok (), ())
  queued _ := (.ok [d], ())
  recordFailedAttempt _ _ := (.ok 1, ())

/-- After a live diff of one contract and a queued one of the other, the first hash resolves to the later of
its transformers, and a hash of neither address to nothing. -/
theorem resolves_to_last_sample :
    let d (id : DiffId) (a : Address) : StoredDiff := ⟨id, ⟨a.hash, default, 10, default, default⟩⟩
    let start : Watcher Unit Nat := .start thriceRegistry ()
    let w := start.run (listing (d 2 (.ofBytes [7]))) 3 [.live (.ok (d 1 default)), .tick]
    HashesDiffer (thrice.map Prod.fst) ∧ thriceRegistry.Holds thrice ∧
      (w.registry.resolve (default : Address).hash).1 = some 3 ∧
      (w.registry.resolve (Address.ofBytes [7]).hash).1 = some 2 ∧
      (w.registry.resolve default).1 = none := by
  intro d start w
  have hdiffer : HashesDiffer (thrice.map Prod.fst) := by decide +kernel
  have hholds : thriceRegistry.Holds thrice := ⟨.swap _ _ _, rfl⟩
  obtain ⟨-, hresolve⟩ := resolves_to_last _ 3 hdiffer hholds () (reached_run .start _ : Reached _ _ start w)
  refine ⟨hdiffer, hholds, ((hresolve _).2.1 3).2 ?_, ((hresolve _).2.1 2).2 ?_, (hresolve _).2.2.2 ?_⟩
  · exact ⟨[(default, 1), (.ofBytes [7], 2)], default, [], rfl, rfl, List.not_mem_nil⟩
  · exact ⟨[(default, 1)], .ofBytes [7], [(default, 3)], rfl, rfl, by decide⟩
  · decide +kernel

end Watcher

end SlotIndex
