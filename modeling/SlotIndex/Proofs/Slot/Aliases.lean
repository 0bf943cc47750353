import Mathlib.Data.List.Find
import Mathlib.Data.List.Nodup
import SlotIndex.Slot.Lookup

/-!
# Keys and their hashes

After a load a key table knows every loaded key and the hash of every loaded key. What it knows under
a word is what the last entry has that is entered under it, in the order in which the load lists its
entries. A loaded key that is itself the hash of a loaded key therefore has its own metadata in some
orders and that of the other key in others.

* `isKnownAs`: the words under which an entry is entered.
* `get?_ofLoaded`: what is known under a word; `isSome_get?_ofLoaded`, `exists_of_get?_ofLoaded`.
* `get?_ofLoaded_of_apart`: the case in which keys and hashes are all different.
* `find_ofLoaded_split`: what is known under a loaded key, in one order.
* `exists_isAfter_last`, `exists_find_of_isAfter`, `find_isAfter_iff`: all that can be known under it after
  a load.
* **`own_metadata_iff`**: when a loaded key has its own metadata after every load;
  `first_element_shadowed`: a key that has not.
-/

namespace SlotIndex

/-- Whether an entry of a load is entered under a word: as the key itself, or as its hash. -/
def isKnownAs (x : Word) (e : Word × Metadata) : Bool := e.1 = x || e.1.hash = x

theorem isKnownAs_iff {x : Word} {e : Word × Metadata} :
    isKnownAs x e = true ↔ e.1 = x ∨ e.1.hash = x := by
  simp [isKnownAs]

namespace Lookup

theorem get?_enter (known : Table Word Metadata) (e : Word × Metadata) (x : Word) :
    (enter known e).get? x = if isKnownAs x e then some e.2 else known.get? x := by
  rw [enter, Table.get?_insert, Table.get?_insert]
  by_cases hkey : x = e.1
  · simp [isKnownAs, hkey]
  · by_cases hhash : x = e.1.hash
    · simp [isKnownAs, hhash]
    · simp [isKnownAs, hkey, hhash, Ne.symm hkey, Ne.symm hhash]

theorem get?_foldl_enter (entries : List (Word × Metadata)) (known : Table Word Metadata) (x : Word) :
    (entries.foldl enter known).get? x =
      ((entries.reverse.find? (isKnownAs x)).map Prod.snd).or (known.get? x) := by
  induction entries generalizing known with
  | nil => simp
  | cons e entries ih =>
    rw [List.foldl_cons, ih, get?_enter, List.reverse_cons, List.find?_append]
    cases entries.reverse.find? (isKnownAs x) with
    | some found => simp
    | none => by_cases he : isKnownAs x e <;> simp [he]

/-- **What is known under a word** is what the last entry has that is entered under it. -/
theorem get?_ofLoaded (loaded : Table Word Metadata) (x : Word) :
    (ofLoaded loaded).known.get? x =
      (loaded.entries.reverse.find? (isKnownAs x)).map Prod.snd := by
  rw [ofLoaded, get?_foldl_enter, Table.get?_empty, Option.or_none]

theorem isSome_get?_ofLoaded (loaded : Table Word Metadata) (x : Word) :
    ((ofLoaded loaded).known.get? x).isSome ↔ ∃ e ∈ loaded.entries, isKnownAs x e = true := by
  rw [get?_ofLoaded, Option.isSome_map, List.find?_isSome]
  simp only [List.mem_reverse]

theorem exists_of_get?_ofLoaded {loaded : Table Word Metadata} {x : Word} {m : Metadata}
    (h : (ofLoaded loaded).known.get? x = some m) :
    ∃ e ∈ loaded.entries, isKnownAs x e = true ∧ e.2 = m := by
  rw [get?_ofLoaded] at h
  obtain ⟨e, hfind, hm⟩ := Option.map_eq_some_iff.1 h
  exact ⟨e, List.mem_reverse.1 (List.mem_of_find?_eq_some hfind), List.find?_some hfind, hm⟩

/-- A key that is known takes no load. -/
theorem find_of_known {s : Lookup} {x : Word} {m : Metadata} (h : s.known.get? x = some m)
    (load : Loaded) : s.find load x = ⟨.ok m, s, 0⟩ := by
  simp only [find, h]

/-! ## Keys and hashes that are all different -/

/-- Keys and their hashes are all different. -/
def Apart (keys : List Word) : Prop := (keys ++ keys.map Word.hash).Nodup

instance (keys : List Word) : Decidable (Apart keys) :=
  inferInstanceAs (Decidable (keys ++ keys.map Word.hash).Nodup)

/-- Then a word stands for one entry at most. -/
theorem Apart.eq_of_isKnownAs {entries : List (Word × Metadata)} (h : Apart (entries.map Prod.fst))
    {e e' : Word × Metadata} (he : e ∈ entries) (he' : e' ∈ entries) {x : Word}
    (hx : isKnownAs x e = true) (hx' : isKnownAs x e' = true) : e = e' := by
  obtain ⟨hkeys, hhashes, hdisjoint⟩ := List.nodup_append.1 h
  rw [List.map_map] at hhashes
  have hmem : e.1 ∈ entries.map Prod.fst := List.mem_map_of_mem he
  have hmem' : e'.1 ∈ entries.map Prod.fst := List.mem_map_of_mem he'
  rcases isKnownAs_iff.1 hx with rfl | rfl <;> rcases isKnownAs_iff.1 hx' with hx' | hx'
  · exact List.inj_on_of_nodup_map hkeys he he' hx'.symm
  · exact absurd hx'.symm (hdisjoint _ hmem _ (List.mem_map_of_mem hmem'))
  · exact absurd hx' (hdisjoint _ hmem' _ (List.mem_map_of_mem hmem))
  · exact List.inj_on_of_nodup_map hhashes he he' hx'.symm

theorem get?_ofLoaded_of_apart {loaded : Table Word Metadata} (h : Apart loaded.keys)
    {e : Word × Metadata} (he : e ∈ loaded.entries) {x : Word} (hx : isKnownAs x e = true) :
    (ofLoaded loaded).known.get? x = some e.2 := by
  rw [get?_ofLoaded]
  cases hfind : loaded.entries.reverse.find? (isKnownAs x) with
  | none => exact absurd hx (List.find?_eq_none.1 hfind e (List.mem_reverse.2 he))
  | some e' =>
    have he' : e' ∈ loaded.entries := List.mem_reverse.1 (List.mem_of_find?_eq_some hfind)
    rw [h.eq_of_isKnownAs he he' hx (List.find?_some hfind), Option.map_some]

/-! ## Keys that are hashes of keys -/

variable {loaded : Table Word Metadata} {k : Word} {m : Metadata}

/-- **A loaded key in one order**: it has its own metadata unless a later key has it as its hash; then
it has the metadata of the last such key. -/
theorem find_ofLoaded_split {before after : List (Word × Metadata)}
    (h : loaded.entries = before ++ (k, m) :: after) (load : Loaded) :
    ((ofLoaded loaded).find load k).result =
      .ok (((after.reverse.find? fun e => e.1.hash = k).map Prod.snd).getD m) := by
  have hafter : ∀ e ∈ after.reverse, isKnownAs k e = decide (e.1.hash = k) := by
    intro e he
    have hne : e.1 ≠ k := by
      intro heq
      have hnodup := loaded.nodup_keys
      rw [h, List.map_append, List.map_cons] at hnodup
      have hmem : e.1 ∈ after.map Prod.fst := List.mem_map_of_mem (List.mem_reverse.1 he)
      rw [heq] at hmem
      exact (List.nodup_cons.1 (List.nodup_append.1 hnodup).2.1).1 hmem
    simp [isKnownAs, hne]
  have hown : isKnownAs k (k, m) = true := by simp [isKnownAs]
  have hknown : (ofLoaded loaded).known.get? k =
      some (((after.reverse.find? fun e => e.1.hash = k).map Prod.snd).getD m) := by
    rw [get?_ofLoaded, h, List.reverse_append, List.reverse_cons, List.append_assoc,
      List.find?_append, List.singleton_append, List.find?_cons_of_pos hown, List.find?_congr hafter]
    cases after.reverse.find? fun e => e.1.hash = k <;> rfl
  rw [find_of_known hknown]

/-- Every entry can be made last. -/
theorem exists_isAfter_last {e : Word × Metadata} (he : e ∈ loaded.entries) :
    ∃ t : Lookup, t.IsAfter loaded ∧ ∀ x, isKnownAs x e = true → t.known.get? x = some e.2 := by
  obtain ⟨front, back, hsplit⟩ := List.append_of_mem he
  have hperm : (front ++ back ++ [e]).Perm loaded.entries := by
    rw [hsplit]
    exact (List.perm_append_singleton e _).trans List.perm_middle.symm
  have hnodup : ((front ++ back ++ [e]).map Prod.fst).Nodup :=
    (hperm.map Prod.fst).nodup_iff.2 loaded.nodup_keys
  refine ⟨ofLoaded ⟨front ++ back ++ [e], hnodup⟩, ⟨_, hperm, rfl⟩, fun x hx => ?_⟩
  rw [get?_ofLoaded, List.reverse_append, List.reverse_singleton, List.singleton_append,
    List.find?_cons_of_pos hx, Option.map_some]

/-- A loaded key is found without another load. It has its own metadata, or that of a loaded key that has it
as its hash. -/
theorem exists_find_of_isAfter {t : Lookup} (ht : t.IsAfter loaded) (h : (k, m) ∈ loaded.entries) :
    ∃ m', (m' = m ∨ ∃ e ∈ loaded.entries, e.1.hash = k ∧ e.2 = m') ∧
      ∀ load, t.find load k = ⟨.ok m', t, 0⟩ := by
  obtain ⟨listed, hperm, rfl⟩ := ht
  have hsome : ((ofLoaded listed).known.get? k).isSome :=
    (isSome_get?_ofLoaded listed k).2 ⟨(k, m), hperm.mem_iff.2 h, isKnownAs_iff.2 (.inl rfl)⟩
  obtain ⟨m', hm'⟩ := Option.isSome_iff_exists.1 hsome
  obtain ⟨e, he, hk, rfl⟩ := exists_of_get?_ofLoaded hm'
  refine ⟨e.2, ?_, find_of_known hm'⟩
  rcases isKnownAs_iff.1 hk with hkey | hhash
  · have heq : e = (k, m) := List.inj_on_of_nodup_map loaded.nodup_keys (hperm.mem_iff.1 he) h hkey
    exact .inl (congrArg Prod.snd heq)
  · exact .inr ⟨e, hperm.mem_iff.1 he, hhash, rfl⟩

/-- **All that can be known under a loaded key.** -/
theorem find_isAfter_iff (h : (k, m) ∈ loaded.entries) {m' : Metadata} :
    (∃ t : Lookup, t.IsAfter loaded ∧ ∀ load, t.find load k = ⟨.ok m', t, 0⟩) ↔
      m' = m ∨ ∃ e ∈ loaded.entries, e.1.hash = k ∧ e.2 = m' := by
  constructor
  · rintro ⟨t, ht, hfind⟩
    obtain ⟨found, hfound, hfind'⟩ := exists_find_of_isAfter ht h
    have hsame := (hfind (.ok loaded)).symm.trans (hfind' (.ok loaded))
    cases hsame
    exact hfound
  · rintro (rfl | ⟨e, he, hhash, rfl⟩)
    · obtain ⟨t, ht, hlast⟩ := exists_isAfter_last h
      exact ⟨t, ht, find_of_known (hlast k (isKnownAs_iff.2 (.inl rfl)))⟩
    · obtain ⟨t, ht, hlast⟩ := exists_isAfter_last he
      exact ⟨t, ht, find_of_known (hlast k (isKnownAs_iff.2 (.inr hhash)))⟩

/-- **A loaded key has its own metadata after every load** exactly if no loaded key with other metadata has it
as its hash. It is always found without another load, and what is found is its own metadata or that of a
loaded key that has it as its hash: each of them in some order of the entries, and nothing else in any. -/
theorem own_metadata_iff (h : (k, m) ∈ loaded.entries) :
    (∀ t : Lookup, t.IsAfter loaded → ∃ m', ∀ load, t.find load k = ⟨.ok m', t, 0⟩) ∧
    (∀ m', (∃ t : Lookup, t.IsAfter loaded ∧ ∀ load, t.find load k = ⟨.ok m', t, 0⟩) ↔
      m' = m ∨ ∃ e ∈ loaded.entries, e.1.hash = k ∧ e.2 = m') ∧
    ((∀ t : Lookup, t.IsAfter loaded → ∀ load, t.find load k = ⟨.ok m, t, 0⟩) ↔
      ∀ e ∈ loaded.entries, e.1.hash = k → e.2 = m) := by
  refine ⟨fun t ht => ?_, fun m' => find_isAfter_iff h, fun hall e he hhash => ?_, fun hown t ht => ?_⟩
  · obtain ⟨m', -, hfind⟩ := exists_find_of_isAfter ht h
    exact ⟨m', hfind⟩
  · obtain ⟨t, ht, hfind⟩ := (find_isAfter_iff h).2 (.inr ⟨e, he, hhash, rfl⟩)
    have hsame := (hfind (.ok loaded)).symm.trans (hall t ht (.ok loaded))
    exact Except.ok.inj (congrArg Answer.result hsame)
  · obtain ⟨m', hfound, hfind⟩ := exists_find_of_isAfter ht h
    obtain rfl : m' = m := by
      rcases hfound with hm | ⟨e, he, hhash, hm⟩
      · exact hm
      · exact hm.symm.trans (hown e he hhash)
    exact hfind

/-- Metadata of a plain number. -/
def sampleMetadata (name : String) : Metadata := ⟨name, Table.empty, .plain .uint256, by decide⟩

/-- The length of a dynamic array, which stands at a slot, and its first element, which stands at the
hash of the slot. The element is listed first. -/
def sampleArray : Table Word Metadata where
  entries := [((Word.ofNat 0).hash, sampleMetadata "first"), (Word.ofNat 0, sampleMetadata "length")]
  nodup_keys := by decide +kernel

/-- The length has its own metadata, in either order. -/
theorem own_metadata_length :
    (Word.ofNat 0, sampleMetadata "length") ∈ sampleArray.entries ∧
      ∀ t : Lookup, t.IsAfter sampleArray →
        ∀ load, t.find load (Word.ofNat 0) = ⟨.ok (sampleMetadata "length"), t, 0⟩ := by
  have hmem : (Word.ofNat 0, sampleMetadata "length") ∈ sampleArray.entries := by
    simp [sampleArray]
  have hother : ∀ e ∈ sampleArray.entries, e.1.hash = Word.ofNat 0 → e.2 = sampleMetadata "length" := by
    decide +kernel
  exact ⟨hmem, (own_metadata_iff hmem).2.2.2 hother⟩

/-- The first element has the metadata of the length when it is listed first. -/
theorem first_element_shadowed :
    ((Word.ofNat 0).hash, sampleMetadata "first") ∈ sampleArray.entries ∧
      (ofLoaded sampleArray).IsAfter sampleArray ∧
      (∀ load, ((ofLoaded sampleArray).find load (Word.ofNat 0).hash).result =
        .ok (sampleMetadata "length")) ∧
      sampleMetadata "length" ≠ sampleMetadata "first" := by
  have hsplit : sampleArray.entries = [] ++ ((Word.ofNat 0).hash, sampleMetadata "first") ::
      [(Word.ofNat 0, sampleMetadata "length")] := rfl
  refine ⟨by simp [sampleArray], ⟨sampleArray, List.Perm.refl _, rfl⟩, fun load => ?_, by decide⟩
  rw [find_ofLoaded_split hsplit]
  simp

end Lookup

end SlotIndex
