/-!
# Tables

A finite map that remembers the order in which its keys were first set. Setting a key again replaces
its value and keeps its place.

* `Table.insert`, `Table.get?`, `Table.keys`, `Table.ofList`.
* `get?_insert`: what a look-up finds after a key is set.
* `mem_keys_insert`, `isSome_get?`: which keys there are.
* `entries_insertAll`, `entries_ofList`: entries whose keys are new keep their order.
* `get?_ofList_eq_some`, `mem_keys_ofList`: of several entries with one key the last one counts.
-/

namespace SlotIndex

/-- A list of entries with a value set in place of the first entry with the key, or at the end. -/
def setEntry {κ α : Type} [DecidableEq κ] (k : κ) (a : α) : List (κ × α) → List (κ × α)
  | [] => [(k, a)]
  | e :: rest => if e.1 = k then (k, a) :: rest else e :: setEntry k a rest

theorem mem_keys_setEntry {κ α : Type} [DecidableEq κ] {k j : κ} {a : α} {es : List (κ × α)} :
    j ∈ (setEntry k a es).map Prod.fst ↔ j = k ∨ j ∈ es.map Prod.fst := by
  induction es with
  | nil => simp [setEntry]
  | cons e rest ih =>
    by_cases h : e.1 = k
    · subst h; simp [setEntry]
    · rw [setEntry, if_neg h, List.map_cons, List.mem_cons, ih, List.map_cons, List.mem_cons]
      exact or_left_comm

theorem nodup_setEntry {κ α : Type} [DecidableEq κ] {k : κ} {a : α} {es : List (κ × α)}
    (h : (es.map Prod.fst).Nodup) : ((setEntry k a es).map Prod.fst).Nodup := by
  induction es with
  | nil => simp [setEntry]
  | cons e rest ih =>
    rw [List.map_cons, List.nodup_cons] at h
    by_cases he : e.1 = k
    · subst he
      rw [setEntry, if_pos rfl, List.map_cons, List.nodup_cons]
      exact h
    · rw [setEntry, if_neg he, List.map_cons, List.nodup_cons]
      refine ⟨fun hm => ?_, ih h.2⟩
      rcases mem_keys_setEntry.1 hm with hk | hk
      · exact he hk
      · exact h.1 hk

theorem setEntry_of_not_mem {κ α : Type} [DecidableEq κ] {k : κ} {a : α} {es : List (κ × α)}
    (h : k ∉ es.map Prod.fst) : setEntry k a es = es ++ [(k, a)] := by
  induction es with
  | nil => rfl
  | cons e rest ih =>
    rw [List.map_cons, List.mem_cons, not_or] at h
    rw [setEntry, if_neg (Ne.symm h.1), ih h.2, List.cons_append]

/-- A finite map with its entries in the order in which their keys were first set. -/
structure Table (κ α : Type) where
  entries : List (κ × α)
  nodup_keys : (entries.map Prod.fst).Nodup
deriving DecidableEq

namespace Table

variable {κ α : Type}

/-- The table without entries. -/
def empty : Table κ α := ⟨[], List.nodup_nil⟩

instance : Inhabited (Table κ α) := ⟨empty⟩

/-- The keys, in the order in which they were first set. -/
def keys (t : Table κ α) : List κ := t.entries.map Prod.fst

/-- The values, in the order of their keys. -/
def values (t : Table κ α) : List α := t.entries.map Prod.snd

/-- The number of entries. -/
def size (t : Table κ α) : Nat := t.entries.length

variable [DecidableEq κ]

/-- Set the value of a key. -/
def insert (t : Table κ α) (k : κ) (a : α) : Table κ α :=
  ⟨setEntry k a t.entries, nodup_setEntry t.nodup_keys⟩

/-- The value of a key. -/
def get? (t : Table κ α) (k : κ) : Option α :=
  (t.entries.find? fun e => e.1 = k).map Prod.snd

/-- Whether a key has a value. -/
def contains (t : Table κ α) (k : κ) : Bool :=
  (t.get? k).isSome

/-- Set all entries of a list, one after the other. -/
def insertAll (t : Table κ α) (es : List (κ × α)) : Table κ α :=
  es.foldl (fun t e => t.insert e.1 e.2) t

/-- The table of a list of entries; of several entries with one key the last one counts. -/
def ofList (es : List (κ × α)) : Table κ α :=
  empty.insertAll es

@[simp] theorem get?_empty (k : κ) : (empty : Table κ α).get? k = none := rfl

theorem get?_insert (t : Table κ α) (k j : κ) (a : α) :
    (t.insert k a).get? j = if j = k then some a else t.get? j := by
  obtain ⟨es, hn⟩ := t
  simp only [get?, insert]
  clear hn
  induction es with
  | nil =>
    by_cases h : j = k
    · simp [setEntry, h]
    · simp [setEntry, h, Ne.symm h]
  | cons e rest ih =>
    by_cases hj : j = k
    · subst hj
      by_cases he : e.1 = j
      · simp [setEntry, he]
      · simpa [setEntry, he] using ih
    · by_cases he : e.1 = k
      · have : ¬ e.1 = j := fun h => hj (h.symm.trans he)
        simp [setEntry, he, hj, Ne.symm hj]
      · by_cases hej : e.1 = j
        · simp [setEntry, hej, hj]
        · simpa [setEntry, he, hej, hj] using ih

theorem get?_of_mem {t : Table κ α} {e : κ × α} (h : e ∈ t.entries) : t.get? e.1 = some e.2 := by
  obtain ⟨es, hn⟩ := t
  simp only [get?] at h ⊢
  induction es with
  | nil => contradiction
  | cons x rest ih =>
    rw [List.map_cons, List.nodup_cons] at hn
    rcases List.mem_cons.1 h with rfl | hrest
    · rw [List.find?_cons_of_pos (by simp)]
      rfl
    · have hne : x.1 ≠ e.1 := fun heq => hn.1 (heq ▸ List.mem_map_of_mem hrest)
      rw [List.find?_cons_of_neg (by simpa using hne)]
      exact ih hn.2 hrest

theorem mem_entries_iff {t : Table κ α} {e : κ × α} : e ∈ t.entries ↔ t.get? e.1 = some e.2 := by
  refine ⟨get?_of_mem, fun h => ?_⟩
  obtain ⟨found, hfind, hvalue⟩ := Option.map_eq_some_iff.1 h
  have hkey : found.1 = e.1 := by simpa using List.find?_some hfind
  exact Prod.ext hkey hvalue ▸ List.mem_of_find?_eq_some hfind

theorem mem_keys_insert {t : Table κ α} {k j : κ} {a : α} :
    j ∈ (t.insert k a).keys ↔ j = k ∨ j ∈ t.keys :=
  mem_keys_setEntry

theorem isSome_get? {t : Table κ α} {k : κ} : (t.get? k).isSome ↔ k ∈ t.keys := by
  simp [get?, keys, List.find?_isSome]

theorem entries_insertAll {t : Table κ α} {es : List (κ × α)}
    (h : (t.keys ++ es.map Prod.fst).Nodup) : (t.insertAll es).entries = t.entries ++ es := by
  induction es generalizing t with
  | nil => simp [insertAll]
  | cons e es ih =>
    have hnew : e.1 ∉ t.keys := by
      intro hmem
      exact (List.nodup_append.1 h).2.2 e.1 hmem e.1 (by simp) rfl
    have hentries : (t.insert e.1 e.2).entries = t.entries ++ [e] := setEntry_of_not_mem hnew
    have hrest : ((t.insert e.1 e.2).keys ++ es.map Prod.fst).Nodup := by
      rw [keys, hentries, List.map_append, List.append_assoc]
      exact h
    have := ih hrest
    rw [hentries, List.append_assoc] at this
    exact this

theorem entries_ofList {es : List (κ × α)} (h : (es.map Prod.fst).Nodup) :
    (ofList es).entries = es :=
  (entries_insertAll (t := empty) h).trans (List.nil_append es)

theorem mem_keys_insertAll {t : Table κ α} {es : List (κ × α)} {k : κ} :
    k ∈ (t.insertAll es).keys ↔ k ∈ t.keys ∨ k ∈ es.map Prod.fst := by
  induction es generalizing t with
  | nil => simp [insertAll]
  | cons e es ih =>
    have hstep : t.insertAll (e :: es) = (t.insert e.1 e.2).insertAll es := rfl
    rw [hstep, ih, mem_keys_insert, List.map_cons, List.mem_cons, or_assoc, or_left_comm]

theorem mem_keys_ofList {es : List (κ × α)} {k : κ} :
    k ∈ (ofList es).keys ↔ k ∈ es.map Prod.fst := by
  rw [ofList, mem_keys_insertAll]
  exact or_iff_right List.not_mem_nil

theorem get?_insertAll_of_not_mem {t : Table κ α} {es : List (κ × α)} {k : κ}
    (h : k ∉ es.map Prod.fst) : (t.insertAll es).get? k = t.get? k := by
  induction es generalizing t with
  | nil => rfl
  | cons e es ih =>
    rw [List.map_cons, List.mem_cons, not_or] at h
    have hstep : t.insertAll (e :: es) = (t.insert e.1 e.2).insertAll es := rfl
    rw [hstep, ih h.2, get?_insert, if_neg h.1]

/-- An entry with a key, and no other one with this key behind it. -/
theorem exists_last_entry {es : List (κ × α)} {k : κ} (h : k ∈ es.map Prod.fst) :
    ∃ front a back, es = front ++ (k, a) :: back ∧ k ∉ back.map Prod.fst := by
  induction es with
  | nil => contradiction
  | cons e es ih =>
    by_cases hmem : k ∈ es.map Prod.fst
    · obtain ⟨front, a, back, rfl, hback⟩ := ih hmem
      exact ⟨e :: front, a, back, rfl, hback⟩
    · rw [List.map_cons, List.mem_cons] at h
      exact ⟨[], e.2, es, by rw [h.resolve_right hmem]; rfl, hmem⟩

/-- A key has the value of the last entry with this key. -/
theorem get?_ofList_eq_some {es : List (κ × α)} {k : κ} {a : α} :
    (ofList es).get? k = some a ↔
      ∃ front back, es = front ++ (k, a) :: back ∧ k ∉ back.map Prod.fst := by
  have hlast (front : List (κ × α)) (b : α) {back : List (κ × α)} (hback : k ∉ back.map Prod.fst) :
      (ofList (front ++ (k, b) :: back)).get? k = some b := by
    have hstep : ofList (front ++ (k, b) :: back) = ((ofList front).insert k b).insertAll back :=
      List.foldl_append
    rw [hstep, get?_insertAll_of_not_mem hback, get?_insert, if_pos rfl]
  constructor
  · intro h
    have hmem : k ∈ es.map Prod.fst := by
      rw [← mem_keys_ofList, ← isSome_get?, h]
      rfl
    obtain ⟨front, b, back, rfl, hback⟩ := exists_last_entry hmem
    rw [hlast front b hback, Option.some.injEq] at h
    exact ⟨front, back, by rw [h], hback⟩
  · rintro ⟨front, back, rfl, hback⟩
    exact hlast front a hback

end Table

end SlotIndex
