import Mathlib.Data.List.Perm.Subperm
import SlotIndex.Backfill.Target
import SlotIndex.Proofs.Fallible
import SlotIndex.Proofs.FirstOccurrences
import SlotIndex.Proofs.Word.Addresses

/-!
# What a selection holds

A selection is made by choosing contracts and keys of contracts, one call after the other. All that
counts about it are the chosen contracts and the chosen keys of each; both come together from all calls,
so the order of the calls does not matter and no call counts twice.

* `Selection.wantsSlot_iff`, `Selection.sameAs_iff`: the two views, and when two selections agree in them.
* `SelectionCall`, `Selection.after`: calls; `wantsAccount_after`, `mem_keysOf_after`: what they come to.
* `sameAs_after`: calls in another order.
* `ChainSettings.Names`, `contractAddress_eq_ok`: the addresses that contracts are named by.
* `targetCall`, `targetSelection_eq_some`: the calls that names and keys come to.
* **`selects_what_is_named`**.
-/

namespace SlotIndex

namespace Selection

variable {s t : Selection} {account a key : Word}

/-! ## Chosen contracts and chosen keys -/

/-- A slot is chosen if its contract is, with this key or with none at all. -/
theorem wantsSlot_iff : s.wantsSlot account key = true ↔
    s.wantsAccount account = true ∧ (s.keysOf account = [] ∨ key ∈ s.keysOf account) := by
  unfold wantsSlot wantsAccount Table.contains keysOf
  cases s.contracts.get? account with
  | none => simp
  | some keys => simp

theorem wantsAccount_insert {keys : List Word} :
    (⟨s.contracts.insert a keys⟩ : Selection).wantsAccount account = true ↔
      account = a ∨ s.wantsAccount account = true := by
  unfold wantsAccount Table.contains
  rw [Table.get?_insert]
  by_cases h : account = a <;> simp [h]

theorem keysOf_insert {keys : List Word} :
    (⟨s.contracts.insert a keys⟩ : Selection).keysOf account =
      if account = a then keys else s.keysOf account := by
  rw [keysOf, Table.get?_insert]
  split <;> rfl

theorem keysOf_addContract : (s.addContract a).keysOf account = s.keysOf account := by
  rw [addContract, keysOf_insert]
  split
  · next h => rw [h]
  · rfl

/-- Keys that are put behind others, unless they are there. -/
theorem mem_foldl_keys {keys more : List Word} :
    key ∈ more.foldl (fun ks k => if k ∈ ks then ks else ks ++ [k]) keys ↔ key ∈ keys ∨ key ∈ more := by
  have hadd : (fun (ks : List Word) k => if k ∈ ks then ks else ks ++ [k]) = addNew id := by
    funext ks k
    rw [addNew, List.map_id, id]
  have hmem : key ∈ (more.foldl (addNew id) keys).map id ↔ key ∈ keys.map id ∨ key ∈ more.map id :=
    mem_map_foldl_addNew id
  rwa [List.map_id, List.map_id, List.map_id, ← hadd] at hmem

theorem mem_keysOf_addKeys {keys : List Word} : key ∈ (s.addKeys a keys).keysOf account ↔
    key ∈ s.keysOf account ∨ (account = a ∧ key ∈ keys) := by
  rw [addKeys, keysOf_insert]
  split
  · next h => simp [mem_foldl_keys, h]
  · next h => simp [h]

/-! ## Agreement -/

theorem sameKeys_iff {ks ls : List Word} : sameKeys ks ls = true ↔ ∀ key, key ∈ ks ↔ key ∈ ls := by
  simp only [sameKeys, Bool.and_eq_true, List.all_eq_true, List.contains_iff_mem]
  exact ⟨fun h key => ⟨h.1 key, h.2 key⟩, fun h => ⟨fun key => (h key).1, fun key => (h key).2⟩⟩

theorem wantsAccount_iff_mem : s.wantsAccount account = true ↔ account ∈ s.contracts.keys :=
  Table.isSome_get?

theorem wantsAccount_of_get? {keys : List Word} (h : s.contracts.get? account = some keys) :
    s.wantsAccount account = true := by
  rw [wantsAccount, Table.contains, h, Option.isSome_some]

theorem keysOf_of_get? {keys : List Word} (h : s.contracts.get? account = some keys) :
    s.keysOf account = keys := by
  rw [keysOf, h, Option.getD_some]

theorem keysOf_of_not_wantsAccount (h : ¬ s.wantsAccount account = true) : s.keysOf account = [] := by
  rw [wantsAccount, Table.contains, Option.not_isSome_iff_eq_none] at h
  rw [keysOf, h, Option.getD_none]

/-- Agreement looks up the entries of one selection in the other. -/
theorem sameAs_iff_lookup : s.sameAs t = true ↔ s.size = t.size ∧
    ∀ account, s.wantsAccount account = true → t.wantsAccount account = true ∧
      ∀ key, key ∈ s.keysOf account ↔ key ∈ t.keysOf account := by
  rw [sameAs, Bool.and_eq_true, decide_eq_true_eq, List.all_eq_true]
  refine and_congr_right fun _ => ⟨fun h account hwants => ?_, fun h e he => ?_⟩
  · obtain ⟨e, he, rfl⟩ := List.mem_map.1 (wantsAccount_iff_mem.1 hwants)
    have hsame := h e he
    split at hsame
    · contradiction
    · next keys hget =>
      rw [keysOf_of_get? (Table.mem_entries_iff.1 he), keysOf_of_get? hget]
      exact ⟨wantsAccount_of_get? hget, sameKeys_iff.1 hsame⟩
  · obtain ⟨hwants, hkeys⟩ := h e.1 (wantsAccount_iff_mem.2 (List.mem_map_of_mem he))
    obtain ⟨keys, hget⟩ := Option.isSome_iff_exists.1 hwants
    rw [keysOf_of_get? (Table.mem_entries_iff.1 he), keysOf_of_get? hget] at hkeys
    rw [hget]
    exact sameKeys_iff.2 hkeys

/-- **Selections agree** if the same contracts are chosen in both, with the same keys. -/
theorem sameAs_iff : s.sameAs t = true ↔
    (∀ account, s.wantsAccount account = true ↔ t.wantsAccount account = true) ∧
      ∀ account key, key ∈ s.keysOf account ↔ key ∈ t.keysOf account := by
  rw [sameAs_iff_lookup]
  constructor
  · rintro ⟨hsize, hentries⟩
    have hsub : s.contracts.keys ⊆ t.contracts.keys := fun account hmem =>
      wantsAccount_iff_mem.1 (hentries account (wantsAccount_iff_mem.2 hmem)).1
    -- With as many contracts on both sides, there is none beside those of the first.
    have hlength : t.contracts.keys.length ≤ s.contracts.keys.length := by
      rw [Table.keys, Table.keys, List.length_map, List.length_map]
      exact Nat.le_of_eq hsize.symm
    have hperm := (s.contracts.nodup_keys.subperm hsub).perm_of_length_le hlength
    have hwants : ∀ account, s.wantsAccount account = true ↔ t.wantsAccount account = true := by
      intro account
      rw [wantsAccount_iff_mem, wantsAccount_iff_mem]
      exact hperm.mem_iff
    refine ⟨hwants, fun account key => ?_⟩
    by_cases h : s.wantsAccount account = true
    · exact (hentries account h).2 key
    · rw [keysOf_of_not_wantsAccount h, keysOf_of_not_wantsAccount (mt (hwants account).2 h)]
  · rintro ⟨hwants, hkeys⟩
    refine ⟨?_, fun account h => ⟨(hwants account).1 h, hkeys account⟩⟩
    have hperm : s.contracts.keys.Perm t.contracts.keys := by
      refine (List.perm_ext_iff_of_nodup s.contracts.nodup_keys t.contracts.nodup_keys).2 ?_
      intro account
      exact (wantsAccount_iff_mem.symm.trans (hwants account)).trans wantsAccount_iff_mem
    have hlength := hperm.length_eq
    rwa [Table.keys, Table.keys, List.length_map, List.length_map] at hlength

end Selection

/-! ## Calls -/

/-- A call by which something is chosen. -/
inductive SelectionCall where
  | contract (account : Word)
  | keys (account : Word) (chosen : List Word)

namespace SelectionCall

/-- The contract that is chosen. -/
def account : SelectionCall → Word
  | .contract account => account
  | .keys account _ => account

/-- The keys that are chosen. -/
def chosen : SelectionCall → List Word
  | .contract _ => []
  | .keys _ chosen => chosen

end SelectionCall

namespace Selection

variable {s t : Selection} {account key : Word} {calls : List SelectionCall}

/-- The selection after a call. -/
def call (s : Selection) : SelectionCall → Selection
  | .contract account => s.addContract account
  | .keys account chosen => s.addKeys account chosen

/-- The selection after calls. -/
def after (s : Selection) (calls : List SelectionCall) : Selection := calls.foldl call s

theorem wantsAccount_call {c : SelectionCall} : (s.call c).wantsAccount account = true ↔
    account = c.account ∨ s.wantsAccount account = true := by
  cases c with
  | contract | keys => exact wantsAccount_insert

theorem mem_keysOf_call {c : SelectionCall} : key ∈ (s.call c).keysOf account ↔
    key ∈ s.keysOf account ∨ (account = c.account ∧ key ∈ c.chosen) := by
  cases c with
  | contract a =>
    rw [call, keysOf_addContract]
    simp [SelectionCall.chosen]
  | keys => exact mem_keysOf_addKeys

/-- A contract is chosen after calls if one of them chooses it or it was chosen before. -/
theorem wantsAccount_after : (s.after calls).wantsAccount account = true ↔
    s.wantsAccount account = true ∨ ∃ c ∈ calls, c.account = account := by
  induction calls generalizing s with
  | nil => simp [after]
  | cons c calls ih =>
    rw [after, List.foldl_cons, ← after, ih, wantsAccount_call]
    simp only [List.mem_cons, exists_eq_or_imp, eq_comm (a := account)]
    rw [or_assoc, or_left_comm]

/-- A key is chosen after calls if one of them chooses it or it was chosen before. -/
theorem mem_keysOf_after : key ∈ (s.after calls).keysOf account ↔
    key ∈ s.keysOf account ∨ ∃ c ∈ calls, c.account = account ∧ key ∈ c.chosen := by
  induction calls generalizing s with
  | nil => simp [after]
  | cons c calls ih =>
    rw [after, List.foldl_cons, ← after, ih, mem_keysOf_call]
    simp only [List.mem_cons, exists_eq_or_imp, eq_comm (a := account)]
    rw [or_assoc]

/-- **Calls in another order**, or some of them more often, come to the same selection. -/
theorem sameAs_after {calls' : List SelectionCall} (h : ∀ c, c ∈ calls' ↔ c ∈ calls) :
    (s.after calls').sameAs (s.after calls) = true := by
  rw [sameAs_iff]
  simp only [wantsAccount_after, mem_keysOf_after, h, implies_true, and_self]

end Selection

/-! ## Named contracts -/

/-- An address is named by the name of the contract that is configured with it, and by its text where
no contract has that name. -/
inductive ChainSettings.Names (chain : Chain) (name : String) : Address → Prop
  | configured {contract : ContractDecl} (h : chain.contracts.get? name = some contract) :
      chain.Names name contract.address
  | written {a : Address} (hnew : chain.contracts.get? name = none) (h : a.IsWrittenIn name) :
      chain.Names name a

theorem contractAddress_eq_ok {chain : Chain} {name : String} {a : Address} :
    contractAddress chain name = .ok a ↔ chain.Names name a := by
  unfold contractAddress
  constructor
  · intro h
    cases hget : chain.contracts.get? name with
    | some contract =>
      rw [hget] at h
      cases h
      exact .configured hget
    | none =>
      rw [hget] at h
      exact .written hget (Address.parse_eq_ok_iff.1 (mapError_eq_ok.1 h))
  · rintro (hget | ⟨hget, hwritten⟩)
    · rw [hget]
    · rw [hget]
      exact mapError_eq_ok.2 (Address.parse_eq_ok_iff.2 hwritten)

/-- A name names no address if no contract has it and it writes no address. -/
theorem ChainSettings.not_names_iff {chain : Chain} {name : String} : (¬ ∃ a, chain.Names name a) ↔
    name ∉ chain.contracts.keys ∧ ∀ a : Address, ¬ a.IsWrittenIn name := by
  rw [← Table.isSome_get?, Option.not_isSome_iff_eq_none]
  constructor
  · intro h
    have hnew : chain.contracts.get? name = none :=
      Option.eq_none_iff_forall_ne_some.2 fun contract hget => h ⟨_, .configured hget⟩
    exact ⟨hnew, fun a hwritten => h ⟨a, .written hnew hwritten⟩⟩
  · rintro ⟨hnew, hunwritten⟩ ⟨a, hget | ⟨-, hwritten⟩⟩
    · exact absurd (hget.symm.trans hnew) (Option.some_ne_none _)
    · exact hunwritten a hwritten

/-- The call by which an address is chosen with keys. -/
def targetCall (keys : List Word) (address : Address) : SelectionCall :=
  if keys = [] then .contract address.hash else .keys address.hash keys

variable {chain : Chain} {contracts : List String} {keys : List Word} {a : Address}

theorem account_targetCall : (targetCall keys a).account = a.hash := by
  unfold targetCall
  split <;> rfl

theorem chosen_targetCall : (targetCall keys a).chosen = keys := by
  unfold targetCall
  split
  · next h => exact h.symm
  · rfl

theorem Selection.addTarget_eq {s : Selection} : s.addTarget keys a = s.call (targetCall keys a) := by
  unfold addTarget targetCall
  split <;> rfl

/-- Names and keys select what the calls for the named addresses select. -/
theorem targetSelection_eq_some {s : Selection} :
    targetSelection chain contracts keys = .ok (some s) ↔ contracts ≠ [] ∧
      ∃ addresses, contracts.mapM (contractAddress chain) = .ok addresses ∧
        Selection.empty.after (addresses.map (targetCall keys)) = s := by
  unfold targetSelection
  by_cases h : contracts = []
  · rw [if_pos h]
    split <;> simp [h]
  · rw [if_neg h]
    simp only [bind_eq_ok, pure_eq_ok, Option.some.injEq, h, Selection.after, List.foldl_map,
      Selection.addTarget_eq, ne_eq, not_false_eq_true, true_and]

theorem targetSelection_eq_none :
    targetSelection chain contracts keys = .ok none ↔ contracts = [] ∧ keys = [] := by
  unfold targetSelection
  by_cases h : contracts = []
  · rw [if_pos h]
    split <;> simp [*]
  · rw [if_neg h]
    simp only [bind_eq_ok, pure_eq_ok, h, reduceCtorEq, and_false, exists_false, false_and]

/-- There is a selection if contracts are named, each by a name of an address. -/
theorem exists_targetSelection : (∃ s, targetSelection chain contracts keys = .ok (some s)) ↔
    contracts ≠ [] ∧ ∀ name ∈ contracts, ∃ a, chain.Names name a := by
  simp only [targetSelection_eq_some, ← contractAddress_eq_ok, ← exists_mapM_eq_ok]
  constructor
  · rintro ⟨_, hsome, addresses, haddresses, -⟩
    exact ⟨hsome, addresses, haddresses⟩
  · rintro ⟨hsome, addresses, haddresses⟩
    exact ⟨_, hsome, addresses, haddresses, rfl⟩

/-- There is no answer if keys stand without contracts or a name names no address. -/
theorem exists_targetSelection_error : (∃ e, targetSelection chain contracts keys = .error e) ↔
    (contracts = [] ∧ keys ≠ []) ∨
      ∃ name ∈ contracts, name ∉ chain.contracts.keys ∧ ∀ a : Address, ¬ a.IsWrittenIn name := by
  have herror : (∃ e, targetSelection chain contracts keys = .error e) ↔
      ¬ targetSelection chain contracts keys = .ok none ∧
        ¬ ∃ s, targetSelection chain contracts keys = .ok (some s) := by
    rcases targetSelection chain contracts keys with e | (_ | s) <;> simp
  rw [herror, targetSelection_eq_none, exists_targetSelection]
  simp only [← ChainSettings.not_names_iff]
  by_cases hnone : contracts = []
  · simp [hnone]
  · simp only [hnone, false_and, not_false_eq_true, true_and, ne_eq, false_or, not_forall, exists_prop]

variable {s : Selection} {account key : Word}

/-- The calls for the addresses of names. -/
theorem exists_call_iff {addresses : List Address} {P : SelectionCall → Prop}
    (h : contracts.mapM (contractAddress chain) = .ok addresses) :
    (∃ c ∈ addresses.map (targetCall keys), P c) ↔
      ∃ name ∈ contracts, ∃ a, chain.Names name a ∧ P (targetCall keys a) := by
  simp only [List.mem_map, exists_exists_and_eq_and, mem_of_mapM_eq_ok h, contractAddress_eq_ok]
  constructor
  · rintro ⟨a, ⟨name, hname, ha⟩, hP⟩
    exact ⟨name, hname, a, ha, hP⟩
  · rintro ⟨name, hname, a, ha, hP⟩
    exact ⟨a, ⟨name, hname, ha⟩, hP⟩

/-- A contract is selected if its address is named. -/
theorem wantsAccount_targetSelection (h : targetSelection chain contracts keys = .ok (some s)) :
    s.wantsAccount account = true ↔ ∃ name ∈ contracts, ∃ a, chain.Names name a ∧ a.hash = account := by
  obtain ⟨-, addresses, haddresses, rfl⟩ := targetSelection_eq_some.1 h
  rw [Selection.wantsAccount_after, exists_call_iff haddresses]
  simp only [account_targetCall]
  exact or_iff_right Bool.false_ne_true

/-- A selected contract has the given keys. -/
theorem mem_keysOf_targetSelection (h : targetSelection chain contracts keys = .ok (some s)) :
    key ∈ s.keysOf account ↔ s.wantsAccount account = true ∧ key ∈ keys := by
  rw [wantsAccount_targetSelection h]
  obtain ⟨-, addresses, haddresses, rfl⟩ := targetSelection_eq_some.1 h
  rw [Selection.mem_keysOf_after, exists_call_iff haddresses]
  simp only [account_targetCall, chosen_targetCall]
  constructor
  · rintro (hnone | ⟨name, hname, a, ha, hhash, hkey⟩)
    · exact absurd hnone List.not_mem_nil
    · exact ⟨⟨name, hname, a, ha, hhash⟩, hkey⟩
  · rintro ⟨⟨name, hname, a, ha, hhash⟩, hkey⟩
    exact .inr ⟨name, hname, a, ha, hhash, hkey⟩

/-- Without keys every slot of a selected contract is, and else the slots with these keys. -/
theorem wantsSlot_targetSelection (h : targetSelection chain contracts keys = .ok (some s)) :
    s.wantsSlot account key = true ↔ s.wantsAccount account = true ∧ (keys = [] ∨ key ∈ keys) := by
  rw [Selection.wantsSlot_iff]
  refine and_congr_right fun hwants => ?_
  simp only [List.eq_nil_iff_forall_not_mem, mem_keysOf_targetSelection h, hwants, true_and]

/-- Names and keys in another order, or repeated, select the same. -/
theorem exists_sameAs_targetSelection {contracts' : List String} {keys' : List Word}
    (h : targetSelection chain contracts keys = .ok (some s))
    (hcontracts : ∀ name, name ∈ contracts' ↔ name ∈ contracts) (hkeys : ∀ key, key ∈ keys' ↔ key ∈ keys) :
    ∃ t, targetSelection chain contracts' keys' = .ok (some t) ∧ t.sameAs s = true := by
  obtain ⟨hsome, hnames⟩ := exists_targetSelection.1 ⟨s, h⟩
  have hsome' : contracts' ≠ [] := by
    obtain ⟨name, hname⟩ := List.exists_mem_of_ne_nil contracts hsome
    exact List.ne_nil_of_mem ((hcontracts name).2 hname)
  obtain ⟨t, ht⟩ := exists_targetSelection.2
    ⟨hsome', fun name hname => hnames name ((hcontracts name).1 hname)⟩
  refine ⟨t, ht, Selection.sameAs_iff.2 ?_⟩
  have hwants : ∀ account, t.wantsAccount account = true ↔ s.wantsAccount account = true := by
    intro account
    simp only [wantsAccount_targetSelection ht, wantsAccount_targetSelection h, hcontracts]
  refine ⟨hwants, fun account key => ?_⟩
  rw [mem_keysOf_targetSelection ht, mem_keysOf_targetSelection h, hwants, hkeys]

/-- **What is selected is what is named.** Nothing is asked for by no contracts and no keys, and nothing
is accepted if keys stand without contracts or a name is neither configured nor an address. Otherwise
the slots of the named contracts are selected, those with the given keys if there are any, and neither
the order nor the repetition of contracts and keys matters. This is so of calls in general. -/
theorem selects_what_is_named (chain : Chain) (contracts : List String) (keys : List Word) :
    (targetSelection chain contracts keys = .ok none ↔ contracts = [] ∧ keys = []) ∧
    ((∃ e, targetSelection chain contracts keys = .error e) ↔ (contracts = [] ∧ keys ≠ []) ∨
      ∃ name ∈ contracts, name ∉ chain.contracts.keys ∧ ∀ a : Address, ¬ a.IsWrittenIn name) ∧
    (∀ s, targetSelection chain contracts keys = .ok (some s) →
      (∀ account key, s.wantsSlot account key = true ↔
        (∃ name ∈ contracts, ∃ a, chain.Names name a ∧ a.hash = account) ∧ (keys = [] ∨ key ∈ keys)) ∧
      (∀ account, s.wantsAccount account = true ↔
        ∃ name ∈ contracts, ∃ a, chain.Names name a ∧ a.hash = account) ∧
      ∀ contracts' keys', (∀ name, name ∈ contracts' ↔ name ∈ contracts) →
        (∀ key, key ∈ keys' ↔ key ∈ keys) →
        ∃ t, targetSelection chain contracts' keys' = .ok (some t) ∧ t.sameAs s = true) ∧
    ∀ (s : Selection) (calls calls' : List SelectionCall), (∀ c, c ∈ calls' ↔ c ∈ calls) →
      (s.after calls').sameAs (s.after calls) = true := by
  refine ⟨targetSelection_eq_none, exists_targetSelection_error, fun s hs => ⟨fun account key => ?_,
    fun account => ?_, ?_⟩, ?_⟩
  · rw [wantsSlot_targetSelection hs, wantsAccount_targetSelection hs]
  · exact wantsAccount_targetSelection hs
  · exact fun contracts' keys' => exists_sameAs_targetSelection hs
  · exact fun s calls calls' => Selection.sameAs_after

/-- A contract that is configured is named twice, with a key. -/
theorem selects_what_is_named_twice :
    let vat : Address := Address.ofBytes [53, 209]
    let chain : Chain := { name := "main", chainId := 1, rpcUrlVar := "RPC_URL",
                           contracts := Table.ofList [("vat", { address := vat })] }
    let one : List SelectionCall := [.contract vat.hash]
    ∃ s, targetSelection chain ["vat", "vat"] [Word.ofNat 3] = .ok (some s) ∧
      s.wantsSlot vat.hash (Word.ofNat 3) = true ∧ ¬ s.wantsSlot vat.hash (Word.ofNat 4) = true ∧
      (∃ t, targetSelection chain ["vat"] [Word.ofNat 3, Word.ofNat 3] = .ok (some t) ∧
        t.sameAs s = true) ∧
      (s.after (one ++ one)).sameAs (s.after one) = true := by
  intro vat chain one
  obtain ⟨-, -, hsome, hcalls⟩ := selects_what_is_named chain ["vat", "vat"] [Word.ofNat 3]
  obtain ⟨s, hs⟩ : ∃ s, targetSelection chain ["vat", "vat"] [Word.ofNat 3] = .ok (some s) := ⟨_, rfl⟩
  obtain ⟨hslot, -, hsame⟩ := hsome s hs
  have hget : chain.contracts.get? "vat" = some { address := vat } := rfl
  have hnamed : ∃ name ∈ ["vat", "vat"], ∃ a, chain.Names name a ∧ a.hash = vat.hash :=
    ⟨"vat", by decide, vat, .configured hget, rfl⟩
  refine ⟨s, hs, (hslot _ _).2 ⟨hnamed, by decide⟩, fun h => ?_, hsame _ _ (by simp) (by simp),
    hcalls s one (one ++ one) (by simp)⟩
  exact absurd ((hslot _ _).1 h).2 (by decide)

end SlotIndex
