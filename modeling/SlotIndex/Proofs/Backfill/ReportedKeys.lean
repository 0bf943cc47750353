import SlotIndex.Proofs.Backfill.Choice
import SlotIndex.Proofs.Backfill.Contribution
import SlotIndex.Proofs.Slot.Aliases

/-!
# Keys as they are reported

A source reports the slot of a diff by its key, or by the hash of the key. A key table resolves either to
the metadata of the key. A selection of a backfill does not: it holds the keys that were given and is asked
for the words that are reported. A slot that is reported by its hash is passed over, unless the hash was
given as a key too, and the backfill says nothing about it.

* `Lookup.ResolvesTo`, `Lookup.resolvesTo_iff`: the words that are resolved to the metadata of a key.
* `keepsDiff_targetSelection`: the diffs that names and keys keep.
* `mem_diffsOf_heightMessages_some`: the diffs of a height that a selection leaves.
* **`reported_key_kept_iff`**; `hashed_key_passed_over`: a diff that is resolved and passed over.
-/

namespace SlotIndex

/-! ## Resolved words -/

namespace Lookup

variable {x k : Word}

/-- Whether a word is resolved to the metadata of a key: it is after every load of that key, unless the
load has other metadata under the word. -/
def ResolvesTo (x k : Word) : Prop :=
  ∀ (loaded : Table Word Metadata) (m : Metadata), (k, m) ∈ loaded.entries →
    (∀ e ∈ loaded.entries, isKnownAs x e = true → e.2 = m) →
      (empty.find (.ok loaded) x).result = .ok m

/-- The first word that is asked for causes a load, and is answered from what was loaded. -/
theorem find_empty {loaded : Table Word Metadata} {m : Metadata} :
    (empty.find (.ok loaded) x).result = .ok m ↔ (ofLoaded loaded).known.get? x = some m := by
  have hnone : empty.known.get? x = none := Table.get?_empty x
  simp only [find, hnone]
  cases (ofLoaded loaded).known.get? x with
  | none => simp
  | some m' => simp

/-- **A key and its hash are resolved** to the metadata of the key, and no other word is. -/
theorem resolvesTo_iff : ResolvesTo x k ↔ x = k ∨ x = k.hash := by
  constructor
  · intro h
    let single : Table Word Metadata := ⟨[(k, sampleMetadata "slot")], List.nodup_singleton k⟩
    have hother : ∀ e ∈ single.entries, isKnownAs x e = true → e.2 = sampleMetadata "slot" := by
      intro e he _
      rw [List.mem_singleton.1 he]
    have hfound := find_empty.1 (h single _ (List.mem_singleton_self _) hother)
    obtain ⟨e, he, hknown, -⟩ := exists_of_get?_ofLoaded hfound
    rw [List.mem_singleton.1 he, isKnownAs_iff] at hknown
    exact hknown.imp Eq.symm Eq.symm
  · intro h loaded m hmem hother
    have hknown : isKnownAs x (k, m) = true := isKnownAs_iff.2 (h.imp Eq.symm Eq.symm)
    obtain ⟨m', hget⟩ := Option.isSome_iff_exists.1 ((isSome_get?_ofLoaded loaded x).2 ⟨_, hmem, hknown⟩)
    obtain ⟨e, he, hx, hm⟩ := exists_of_get?_ofLoaded hget
    rw [find_empty, hget, ← hm, hother e he hx]

end Lookup

/-! ## Kept diffs -/

variable {chain : Chain} {contracts : List String} {keys : List Word} {s : Selection} {name : String}
  {a : Address} {k : Word} {x : Diff}

/-- Names and keys keep the diffs of a named contract that are reported under one of the keys. -/
theorem keepsDiff_targetSelection (h : targetSelection chain contracts keys = .ok (some s))
    (hname : name ∈ contracts) (ha : chain.Names name a) (hkeys : keys ≠ []) (hx : x.account = a.hash) :
    keepsDiff (some s) x = true ↔ x.key ∈ keys := by
  have haccount : s.wantsAccount x.account = true :=
    (wantsAccount_targetSelection h).2 ⟨name, hname, a, ha, hx.symm⟩
  change s.wantsSlot x.account x.key = true ↔ _
  rw [wantsSlot_targetSelection h, and_iff_right haccount, or_iff_right hkeys]

/-- A diff that resolves to a given key is kept if it is reported under that key, and else if its hash is
given too. -/
theorem keepsDiff_of_resolvesTo (h : targetSelection chain contracts keys = .ok (some s))
    (hname : name ∈ contracts) (ha : chain.Names name a) (hk : k ∈ keys) (hx : x.account = a.hash)
    (hresolves : Lookup.ResolvesTo x.key k) :
    keepsDiff (some s) x = true ↔ x.key = k ∨ k.hash ∈ keys := by
  rw [keepsDiff_targetSelection h hname ha (List.ne_nil_of_mem hk) hx]
  obtain hkey | hhash := Lookup.resolvesTo_iff.1 hresolves
  · simp [hkey, hk]
  · rw [hhash]
    refine ⟨.inr, ?_⟩
    rintro (hfixed | hmem)
    · rw [hfixed]
      exact hk
    · exact hmem

theorem mem_diffsOf_heightMessages_some {height : UInt64} {result : Except StorageError Payload} :
    x ∈ diffsOf (heightMessages (some s) height result) ↔
      x ∈ diffsOf (heightMessages none height result) ∧ keepsDiff (some s) x = true := by
  rw [diffsOf_heightMessages, diffsOf_heightMessages]
  cases result with
  | error e => simp [heightDiffs]
  | ok payload =>
    rw [heightDiffs, heightDiffs]
    cases payload.decode with
    | error e => simp
    | ok d => simp [keepsDiff]

/-- **A reported key is kept exactly as it was given.** Let a contract be named, and a key be given. Of the
diffs of the contract that resolve to the key, a backfill keeps those that are reported under the key
itself, and the others exactly if the hash of the key was given too. So all of them are kept exactly if
both spellings were given. -/
theorem reported_key_kept_iff (h : targetSelection chain contracts keys = .ok (some s))
    (hname : name ∈ contracts) (ha : chain.Names name a) (hk : k ∈ keys) :
    (∀ x : Diff, x.account = a.hash → Lookup.ResolvesTo x.key k →
      (keepsDiff (some s) x = true ↔ x.key = k ∨ k.hash ∈ keys) ∧
      ∀ height result, x ∈ diffsOf (heightMessages (some s) height result) ↔
        x ∈ diffsOf (heightMessages none height result) ∧ (x.key = k ∨ k.hash ∈ keys)) ∧
    ((∀ x : Diff, x.account = a.hash → Lookup.ResolvesTo x.key k → keepsDiff (some s) x = true) ↔
      k.hash ∈ keys) := by
  refine ⟨fun x hx hresolves => ?_, fun hall => ?_, fun hhash x hx hresolves => ?_⟩
  · have hkeeps := keepsDiff_of_resolvesTo h hname ha hk hx hresolves
    refine ⟨hkeeps, fun height result => ?_⟩
    rw [mem_diffsOf_heightMessages_some, hkeeps]
  · let hashed : Diff := ⟨a.hash, default, default, k.hash, default⟩
    have hkept := hall hashed rfl (Lookup.resolvesTo_iff.2 (.inr rfl))
    exact (keepsDiff_targetSelection h hname ha (List.ne_nil_of_mem hk) rfl).1 hkept
  · exact (keepsDiff_of_resolvesTo h hname ha hk hx hresolves).2 (.inr hhash)

/-- The address of a contract. -/
def sampleVat : Address := Address.ofBytes [53, 209]

/-- A chain with that contract. -/
def sampleVatChain : Chain where
  name := "main"
  chainId := 1
  rpcUrlVar := "RPC_URL"
  contracts := Table.ofList [("vat", { address := sampleVat })]

/-- A key that is given with its hash. -/
theorem reported_key_kept_iff_both :
    let k := Word.ofNat 0
    ∃ s, targetSelection sampleVatChain ["vat"] [k, k.hash] = .ok (some s) ∧
      sampleVatChain.Names "vat" sampleVat ∧
      ∀ x : Diff, x.account = sampleVat.hash → Lookup.ResolvesTo x.key k → keepsDiff (some s) x = true := by
  intro k
  obtain ⟨s, hs⟩ : ∃ s, targetSelection sampleVatChain ["vat"] [k, k.hash] = .ok (some s) := ⟨_, rfl⟩
  have hget : sampleVatChain.contracts.get? "vat" = some { address := sampleVat } := rfl
  have hnames : sampleVatChain.Names "vat" sampleVat := .configured hget
  have hkept := reported_key_kept_iff hs (List.mem_singleton_self _) hnames (List.mem_cons_self (a := k))
  exact ⟨s, hs, hnames, hkept.2.2 (List.mem_cons_of_mem _ (List.mem_singleton_self _))⟩

/-- A diff of the slot at the start of the storage, reported by the hash of the key, is resolved and passed
over. -/
theorem hashed_key_passed_over :
    let k := Word.ofNat 0
    let x : Diff := ⟨sampleVat.hash, Word.ofNat 7, 10, k.hash, Word.ofNat 1⟩
    ∃ s, targetSelection sampleVatChain ["vat"] [k] = .ok (some s) ∧ Lookup.ResolvesTo x.key k ∧
      keepsDiff none x = true ∧ ¬ keepsDiff (some s) x = true := by
  intro k x
  obtain ⟨s, hs⟩ : ∃ s, targetSelection sampleVatChain ["vat"] [k] = .ok (some s) := ⟨_, rfl⟩
  refine ⟨s, hs, Lookup.resolvesTo_iff.2 (.inr rfl), rfl, fun hkept => ?_⟩
  have hkey : k.hash = k :=
    List.mem_singleton.1 (((wantsSlot_targetSelection hs).1 hkept).2.resolve_left (List.cons_ne_nil _ _))
  exact absurd hkey (by decide +kernel)

end SlotIndex
