import Mathlib.Data.List.Forall2
import SlotIndex.Diff.StateDiff
import SlotIndex.Proofs.Rlp.Codec
import SlotIndex.Proofs.Word.Reading

/-!
# The storage entries of a state diff

Each storage entry of a state diff has one result: its diff, if its value is the form of a string, and
else an error. The results stand in the order of the entries, and none depends on another entry, so that a
value that is damaged costs the one result of its entry.

* `EntryYields`: the result of a storage entry.
* `Place`, `entryAt`, `position`, `setValue`: a storage entry by its place, and another value there.
* `exists_accounts_split`: the accounts around a place.
* `getElem?_entries`, `diffs_setValue`: the result of one place, and of another value there.
* **`diffs_of_entries`**: one result for each entry, and each for itself.
-/

namespace SlotIndex

/-- An account with another value in one of its storage entries. -/
def AccountDiff.setValue (account : AccountDiff) (entry : Nat) (value : List UInt8) : AccountDiff :=
  { account with storage := account.storage.modify entry fun e => { e with value } }

namespace StateDiff

/-! ## One entry -/

/-- The result of a storage entry of an account: the diff, if the value is the form of a string, with
each of the two keys and the string in the width of a word; and else the error of its value. -/
inductive EntryYields (d : StateDiff) (account : AccountDiff) (entry : StorageEntry) :
    Except StorageError Diff → Prop where
  | diff {payload : List UInt8} {c : Diff} (hlt : payload.length < UInt64.size)
      (hform : entry.value = Rlp.writeString payload) (haccount : c.account.bytes = Word.fitted account.key)
      (hhash : c.blockHash = d.hash) (hheight : c.height = d.number)
      (hkey : c.key.bytes = Word.fitted entry.key) (hvalue : c.value.bytes = Word.fitted payload) :
      EntryYields d account entry (.ok c)
  | fault {fault : Rlp.Fault}
      (hnone : ∀ payload, payload.length < UInt64.size → entry.value ≠ Rlp.writeString payload)
      (hfault : Rlp.readExactly Rlp.readString entry.value = .error fault) :
      EntryYields d account entry (.error (.rlp fault))

theorem entryYields_diffOf (d : StateDiff) (account : AccountDiff) (entry : StorageEntry) :
    d.EntryYields account entry (d.diffOf account entry) := by
  rw [diffOf]
  cases hread : Rlp.readExactly Rlp.readString entry.value with
  | error fault =>
    refine .fault (fun payload hlt hform => ?_) hread
    rw [Rlp.readExactly_string_eq_ok.2 ⟨hlt, hform⟩] at hread
    contradiction
  | ok payload =>
    obtain ⟨hlt, hform⟩ := Rlp.readExactly_string_eq_ok.1 hread
    exact .diff hlt hform (Word.bytes_ofBytes_eq_fitted _) rfl rfl (Word.bytes_ofBytes_eq_fitted _)
      (Word.bytes_ofBytes_eq_fitted _)

/-- The results of an account. -/
def accountDiffs (d : StateDiff) (account : AccountDiff) : List (Except StorageError Diff) :=
  account.storage.map (d.diffOf account)

theorem length_accountDiffs (d : StateDiff) (account : AccountDiff) :
    (d.accountDiffs account).length = account.storage.length :=
  List.length_map _

theorem diffs_eq (d : StateDiff) : d.diffs = d.accounts.flatMap d.accountDiffs := by
  simp only [diffs, entries, List.map_flatMap, List.map_map]
  rfl

/-- With as many items for each account as it has storage entries, there are as many in all. -/
theorem length_flatMap_storage {α : Type} {f : AccountDiff → List α}
    (hf : ∀ account, (f account).length = account.storage.length) (accounts : List AccountDiff) :
    (accounts.flatMap f).length = (accounts.flatMap AccountDiff.storage).length := by
  induction accounts with
  | nil => rfl
  | cons account accounts ih =>
    rw [List.flatMap_cons, List.flatMap_cons, List.length_append, List.length_append, ih, hf]

/-- What an entry comes to depends on the block and on the key of its account, besides itself. -/
theorem diffOf_congr {d d' : StateDiff} (hnumber : d'.number = d.number) (hhash : d'.hash = d.hash)
    {account account' : AccountDiff} (hkey : account'.key = account.key) (entry : StorageEntry) :
    d'.diffOf account' entry = d.diffOf account entry := by
  simp only [diffOf, hnumber, hhash, hkey]

/-! ## Places -/

/-- The three lists of accounts. -/
inductive Group where
  | created
  | updated
  | deleted
deriving DecidableEq

/-- A storage entry, by the number of its account in one of the lists and its own number there. -/
structure Place where
  group : Group
  account : Nat
  entry : Nat
deriving DecidableEq

/-- One of the lists of accounts. -/
def group (d : StateDiff) : Group → List AccountDiff
  | .created => d.created
  | .updated => d.updated
  | .deleted => d.deleted

/-- The storage entry at a place, with its account. -/
def entryAt (d : StateDiff) (p : Place) : Option (AccountDiff × StorageEntry) := do
  let account ← (d.group p.group)[p.account]?
  let entry ← account.storage[p.entry]?
  return (account, entry)

/-- The accounts of the lists in front of one: created ones come first, then updated ones, then deleted
ones. -/
def ahead (d : StateDiff) : Group → List AccountDiff
  | .created => []
  | .updated => d.created
  | .deleted => d.created ++ d.updated

/-- The accounts of the lists behind one. -/
def behind (d : StateDiff) : Group → List AccountDiff
  | .created => d.updated ++ d.deleted
  | .updated => d.deleted
  | .deleted => []

/-- The accounts in front of the one at a place. -/
def accountsBefore (d : StateDiff) (p : Place) : List AccountDiff :=
  d.ahead p.group ++ (d.group p.group).take p.account

/-- The number of storage entries in front of the one at a place. -/
def position (d : StateDiff) (p : Place) : Nat :=
  ((d.accountsBefore p).flatMap AccountDiff.storage).length + p.entry

/-- The state diff with another value in the storage entry at a place. -/
def setValue (d : StateDiff) (p : Place) (value : List UInt8) : StateDiff :=
  let change (accounts : List AccountDiff) := accounts.modify p.account (·.setValue p.entry value)
  match p.group with
  | .created => { d with created := change d.created }
  | .updated => { d with updated := change d.updated }
  | .deleted => { d with deleted := change d.deleted }

variable {d : StateDiff} {p : Place} {account : AccountDiff} {entry : StorageEntry}

theorem entryAt_eq_some : d.entryAt p = some (account, entry) ↔
    (d.group p.group)[p.account]? = some account ∧ account.storage[p.entry]? = some entry := by
  simp only [entryAt, Option.bind_eq_bind, Option.bind_eq_some_iff, Option.pure_def, Option.some.injEq,
    Prod.mk.injEq]
  constructor
  · rintro ⟨a, ha, e, he, rfl, rfl⟩
    exact ⟨ha, he⟩
  · rintro ⟨ha, he⟩
    exact ⟨account, ha, entry, he, rfl, rfl⟩

/-- The accounts around one of the lists. -/
theorem accounts_eq (d : StateDiff) (g : Group) : d.accounts = d.ahead g ++ d.group g ++ d.behind g := by
  cases g <;> simp [accounts, ahead, group, behind]

theorem accounts_setValue (d : StateDiff) (p : Place) (value : List UInt8) :
    (d.setValue p value).accounts = d.ahead p.group ++
      (d.group p.group).modify p.account (·.setValue p.entry value) ++ d.behind p.group := by
  obtain ⟨g, i, j⟩ := p
  cases g <;> simp [accounts, setValue, ahead, group, behind]

/-- A list around one of its items, and the same with another item there. -/
theorem split_at {α : Type} {as : List α} {i : Nat} {a : α} (h : as[i]? = some a) (f : α → α) :
    as = as.take i ++ a :: as.drop (i + 1) ∧ as.modify i f = as.take i ++ f a :: as.drop (i + 1) := by
  obtain ⟨hi, rfl⟩ := List.getElem?_eq_some_iff.1 h
  refine ⟨?_, List.modify_eq_take_cons_drop hi⟩
  rw [← List.drop_eq_getElem_cons hi, List.take_append_drop]

/-- The accounts around the one at a place, and the same with another value at that place. -/
theorem exists_accounts_split (h : (d.group p.group)[p.account]? = some account) (value : List UInt8) :
    ∃ rest, d.accounts = d.accountsBefore p ++ account :: rest ∧
      (d.setValue p value).accounts = d.accountsBefore p ++ account.setValue p.entry value :: rest := by
  obtain ⟨hsplit, hmodify⟩ := split_at h (·.setValue p.entry value)
  let around (accounts : List AccountDiff) := d.ahead p.group ++ accounts ++ d.behind p.group
  refine ⟨(d.group p.group).drop (p.account + 1) ++ d.behind p.group, ?_, ?_⟩
  · calc
      d.accounts = around (d.group p.group) := d.accounts_eq p.group
      _ = around ((d.group p.group).take p.account ++ account :: (d.group p.group).drop (p.account + 1)) :=
        congrArg around hsplit
      _ = _ := by simp [around, accountsBefore]
  · rw [accounts_setValue, hmodify]
    simp [accountsBefore]

theorem setValue_block (d : StateDiff) (p : Place) (value : List UInt8) :
    (d.setValue p value).number = d.number ∧ (d.setValue p value).hash = d.hash := by
  unfold setValue
  split <;> exact ⟨rfl, rfl⟩

/-- The results of an account with another value in an entry differ in the one of that entry. -/
theorem accountDiffs_setValue {j : Nat} (h : account.storage[j]? = some entry) (value : List UInt8) :
    (d.setValue p value).accountDiffs (account.setValue j value) =
      (d.accountDiffs account).set j (d.diffOf account { entry with value }) := by
  obtain ⟨hnumber, hhash⟩ := d.setValue_block p value
  have hstorage : (account.setValue j value).storage = account.storage.set j { entry with value } := by
    show account.storage.modify j _ = _
    rw [List.modify_eq_set_getElem?, h]
    rfl
  have hresults : (d.setValue p value).diffOf (account.setValue j value) = d.diffOf account :=
    funext fun e => diffOf_congr hnumber hhash rfl e
  rw [accountDiffs, accountDiffs, hresults, hstorage, List.map_set]

theorem getElem?_entries (h : d.entryAt p = some (account, entry)) :
    d.entries[d.position p]? = some (account, entry) := by
  obtain ⟨haccount, hentry⟩ := entryAt_eq_some.1 h
  obtain ⟨rest, haccounts, -⟩ := exists_accounts_split haccount []
  have hown : (account.storage.map fun e => (account, e))[p.entry]? = some (account, entry) := by
    rw [List.getElem?_map, hentry]
    rfl
  have hlt := (List.getElem?_eq_some_iff.1 hown).1
  have hlength (a : AccountDiff) : (a.storage.map fun e => (a, e)).length = a.storage.length :=
    List.length_map _
  rw [entries, haccounts, List.flatMap_append, List.flatMap_cons, position,
    ← length_flatMap_storage hlength, List.getElem?_append_right (Nat.le_add_right _ _),
    Nat.add_sub_cancel_left, List.getElem?_append_left hlt, hown]

theorem getElem?_diffs {i : Nat} (h : d.entries[i]? = some (account, entry)) :
    d.diffs[i]? = some (d.diffOf account entry) := by
  rw [diffs, List.getElem?_map, h]
  rfl

theorem diffs_setValue (h : d.entryAt p = some (account, entry)) (value : List UInt8) :
    (d.setValue p value).diffs =
      d.diffs.set (d.position p) (d.diffOf account { entry with value }) := by
  obtain ⟨haccount, hentry⟩ := entryAt_eq_some.1 h
  obtain ⟨rest, haccounts, hchanged⟩ := exists_accounts_split haccount value
  obtain ⟨hnumber, hhash⟩ := d.setValue_block p value
  -- The accounts in front and behind keep their results, for the block is the same.
  have hothers : (d.setValue p value).accountDiffs = d.accountDiffs :=
    funext fun a => List.map_congr_left fun e _ => diffOf_congr hnumber hhash rfl e
  have hchangedOne := accountDiffs_setValue hentry value (d := d) (p := p)
  have hlt : p.entry < (d.accountDiffs account).length := by
    rw [length_accountDiffs]
    exact (List.getElem?_eq_some_iff.1 hentry).1
  rw [diffs_eq, diffs_eq, haccounts, hchanged, List.flatMap_append, List.flatMap_append,
    List.flatMap_cons, List.flatMap_cons, hchangedOne, hothers, position,
    ← length_flatMap_storage d.length_accountDiffs, List.set_append_right _ _ (Nat.le_add_right _ _),
    Nat.add_sub_cancel_left, List.set_append_left _ _ hlt]

/-! ## All entries -/

theorem forall₂_entries (d : StateDiff) :
    List.Forall₂ (fun e r => d.EntryYields e.1 e.2 r) d.entries d.diffs := by
  rw [diffs, List.forall₂_map_right_iff, List.forall₂_same]
  exact fun e _ => d.entryYields_diffOf e.1 e.2

/-- **Each storage entry has one result of its own.** The results stand in the order of the entries:
those of the created accounts, then of the updated ones, then of the deleted ones. Wherever an entry
stands, in whatever state diff of the block and below whatever account with that key, its result is the
same. And whatever bytes are put in the place of a value, one result changes with them, which is the one
of that entry. -/
theorem diffs_of_entries (d : StateDiff) :
    d.entries = ((d.created ++ d.updated ++ d.deleted).flatMap fun a => a.storage.map fun e => (a, e)) ∧
    List.Forall₂ (fun e r => d.EntryYields e.1 e.2 r) d.entries d.diffs ∧
    (∀ (d' : StateDiff) (account account' : AccountDiff) entry (i i' : Nat), d'.number = d.number →
      d'.hash = d.hash → account'.key = account.key → d.entries[i]? = some (account, entry) →
      d'.entries[i']? = some (account', entry) → d'.diffs[i']? = d.diffs[i]?) ∧
    ∀ p account entry, d.entryAt p = some (account, entry) →
      d.entries[d.position p]? = some (account, entry) ∧
      ∀ value, ∃ r, d.EntryYields account { entry with value } r ∧
        (d.setValue p value).diffs = d.diffs.set (d.position p) r := by
  refine ⟨rfl, d.forall₂_entries, ?anywhere, ?value⟩
  case anywhere =>
    intro d' account account' entry i i' hnumber hhash hkey h h'
    rw [getElem?_diffs h', getElem?_diffs h, diffOf_congr hnumber hhash hkey]
  case value =>
    intro p account entry h
    exact ⟨getElem?_entries h, fun value => ⟨_, d.entryYields_diffOf account _, diffs_setValue h value⟩⟩

/-- A block with an account in each list, and one without storage entries in front of the last. -/
def sampleEntries : StateDiff where
  number := 42
  hash := Word.ofNat 7
  created := [⟨[1], [], [⟨[1], [3]⟩, ⟨[2], [0x81, 0x80]⟩]⟩]
  deleted := [⟨[2], [], [⟨[3], [0x80]⟩]⟩]
  updated := [⟨[3], [], []⟩, ⟨[4], [], [⟨[4], [5]⟩]⟩]

/-- The third entry alone in another state diff, and two more bytes behind its value. -/
theorem diffs_of_entries_sample :
    (StateDiff.mk 42 (Word.ofNat 7) [] [⟨[4], [9], [⟨[4], [5]⟩]⟩] []).diffs[0]? =
      sampleEntries.diffs[2]? ∧
    sampleEntries.entryAt ⟨.updated, 1, 0⟩ = some (⟨[4], [], [⟨[4], [5]⟩]⟩, ⟨[4], [5]⟩) ∧
    sampleEntries.position ⟨.updated, 1, 0⟩ = 2 ∧
    ∃ r, sampleEntries.EntryYields ⟨[4], [], [⟨[4], [5]⟩]⟩ ⟨[4], [5, 1, 2]⟩ r ∧
      (sampleEntries.setValue ⟨.updated, 1, 0⟩ [5, 1, 2]).diffs = sampleEntries.diffs.set 2 r := by
  have h : sampleEntries.entryAt ⟨.updated, 1, 0⟩ = some (⟨[4], [], [⟨[4], [5]⟩]⟩, ⟨[4], [5]⟩) := rfl
  obtain ⟨-, -, hanywhere, hplaces⟩ := diffs_of_entries sampleEntries
  have hentry := (hplaces _ _ _ h).1
  have hsame := hanywhere (StateDiff.mk 42 (Word.ofNat 7) [] [⟨[4], [9], [⟨[4], [5]⟩]⟩] [])
    ⟨[4], [], [⟨[4], [5]⟩]⟩ ⟨[4], [9], [⟨[4], [5]⟩]⟩ ⟨[4], [5]⟩ 2 0 rfl rfl rfl hentry rfl
  exact ⟨hsame, h, rfl, (hplaces _ _ _ h).2 [5, 1, 2]⟩

end StateDiff

end SlotIndex
