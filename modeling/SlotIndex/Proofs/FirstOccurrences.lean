import Mathlib.Data.List.Nodup

/-!
# First occurrences

Items are put behind others one after the other, and an item whose key is there already is passed over.
What is kept are the first occurrences of the keys that were not there before.

* `addNew`: one item.
* `firstsBeside`: the first occurrences among items, beside others.
* **`foldl_addNew`**: what several items come to.
* `foldl_addNew_eq_append_iff`: when none of them is passed over.
-/

namespace SlotIndex

variable {α κ : Type} [DecidableEq κ] (key : α → κ)

/-- Items with one more behind them, unless its key is there. -/
def addNew (items : List α) (a : α) : List α :=
  if key a ∈ items.map key then items else items ++ [a]

/-- The items whose keys are not there beside them, of several with one key the first one. -/
def firstsBeside (present as : List α) : List α :=
  (as.filter fun a => key a ∉ present.map key).eraseDupsBy fun a b => key a = key b

theorem firstsBeside_of_mem {present as : List α} {a : α} (h : key a ∈ present.map key) :
    firstsBeside key present (a :: as) = firstsBeside key present as := by
  rw [firstsBeside, List.filter_cons_of_neg (by simpa using h)]
  rfl

theorem firstsBeside_of_not_mem {present as : List α} {a : α} (h : key a ∉ present.map key) :
    firstsBeside key present (a :: as) = a :: firstsBeside key (present ++ [a]) as := by
  rw [firstsBeside, List.filter_cons_of_pos (by simpa using h), List.eraseDupsBy_cons,
    List.filter_filter, firstsBeside]
  -- Both ask whether a key is new beside the others and beside that of `a`.
  refine congrArg (fun bs => a :: List.eraseDupsBy _ bs) (List.filter_congr fun b _ => ?_)
  simp only [List.map_append, List.map_cons, List.map_nil, List.mem_append, List.mem_singleton]
  by_cases hb : key b = key a <;> simp [hb]

/-- **Items that are put behind others leave their first occurrences there.** -/
theorem foldl_addNew (present as : List α) :
    as.foldl (addNew key) present = present ++ firstsBeside key present as := by
  induction as generalizing present with
  | nil => exact (List.append_nil present).symm
  | cons a as ih =>
    by_cases h : key a ∈ present.map key
    · rw [List.foldl_cons, addNew, if_pos h, ih, firstsBeside_of_mem key h]
    · rw [List.foldl_cons, addNew, if_neg h, ih, firstsBeside_of_not_mem key h, List.append_assoc]
      rfl

theorem mem_map_foldl_addNew {present as : List α} {k : κ} :
    k ∈ (as.foldl (addNew key) present).map key ↔ k ∈ present.map key ∨ k ∈ as.map key := by
  induction as generalizing present with
  | nil => simp
  | cons a as ih =>
    rw [List.foldl_cons, ih, List.map_cons, List.mem_cons, ← or_assoc]
    refine or_congr ?_ Iff.rfl
    by_cases h : key a ∈ present.map key
    · rw [addNew, if_pos h]
      exact (or_iff_left_of_imp fun hk => hk ▸ h).symm
    · rw [addNew, if_neg h, List.map_append, List.mem_append, List.map_singleton,
        List.mem_singleton]

/-- Items whose keys are there already are all passed over. -/
theorem foldl_addNew_of_mem {present as : List α} (h : ∀ a ∈ as, key a ∈ present.map key) :
    as.foldl (addNew key) present = present := by
  induction as with
  | nil => rfl
  | cons a as ih =>
    rw [List.foldl_cons, addNew, if_pos (h a List.mem_cons_self)]
    exact ih fun b hb => h b (List.mem_cons_of_mem a hb)

theorem length_foldl_addNew_le (present as : List α) :
    (as.foldl (addNew key) present).length ≤ present.length + as.length := by
  induction as generalizing present with
  | nil => exact Nat.le_refl _
  | cons a as ih =>
    have hadd : (addNew key present a).length ≤ present.length + 1 := by
      unfold addNew
      split <;> simp
    have hrest := ih (addNew key present a)
    rw [List.foldl_cons, List.length_cons]
    omega

/-- No item is passed over exactly if all keys differ and none of them is there before. -/
theorem foldl_addNew_eq_append_iff {present as : List α} :
    as.foldl (addNew key) present = present ++ as ↔
      (as.map key).Nodup ∧ ∀ a ∈ as, key a ∉ present.map key := by
  induction as generalizing present with
  | nil => simp
  | cons a as ih =>
    by_cases h : key a ∈ present.map key
    · refine iff_of_false (fun heq => ?_) fun hall => hall.2 a List.mem_cons_self h
      -- One item too few is left when the first one is passed over.
      have hlength := length_foldl_addNew_le key present as
      rw [List.foldl_cons, addNew, if_pos h] at heq
      rw [heq, List.length_append, List.length_cons] at hlength
      omega
    · rw [List.foldl_cons, addNew, if_neg h, List.append_cons present a as, ih, List.map_cons,
        List.nodup_cons]
      simp only [List.map_append, List.map_singleton, List.mem_append, List.mem_singleton, not_or,
        List.forall_mem_cons, List.mem_map, not_exists, not_and]
      constructor
      · rintro ⟨hnodup, hnew⟩
        exact ⟨⟨fun b hb => (hnew b hb).2, hnodup⟩, by simpa using h, fun b hb => (hnew b hb).1⟩
      · rintro ⟨⟨ha, hnodup⟩, -, hnew⟩
        exact ⟨hnodup, fun b hb => ⟨hnew b hb, ha b hb⟩⟩

end SlotIndex
