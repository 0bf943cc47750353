import SlotIndex.Proofs.Feed.Channels
import SlotIndex.Proofs.FirstOccurrences

/-!
# Each diff is stored once

The diffs of a source come to the table one after the other. A diff that is stored already, or whose
write fails for a reason of its own, is passed over; the first write that does not reach the table is the
last one.

* `unfailed`, `Reached`: writes that go through, and writes that reach the table.
* `Extracts`: what extraction comes to.
* `Extraction.extracts_foldl`: diffs that are written one after the other.
* `Extraction.Again`, `Extraction.stored_foldl_again`: the same diffs once more.
* `Extraction.run_eq`, `Extraction.state_run`: a source that sends in bursts.
* `Extraction.nodup_foldl_persist`, `Extraction.mem_stored_foldl`: what is sent is in the table once.
* **`stores_each_once`**: extraction beside its source, and once more.
-/

namespace SlotIndex

variable {fails : Nat → Option StorageError}

/-! ## Writes one after the other -/

/-- The diffs whose writes do not fail, when the write of the first one has the number `n`. -/
def unfailed (fails : Nat → Option StorageError) (n : Nat) (ds : List Diff) : List Diff :=
  ((ds.zipIdx n).filter fun x => (fails x.2).isNone).map Prod.fst

/-- All writes reach the table, when the first one has the number `n`. -/
def Reached (fails : Nat → Option StorageError) (n : Nat) (ds : List Diff) : Prop :=
  ∀ x ∈ ds.zipIdx n, ∀ e, fails x.2 = some e → e.kind ≠ .transport

/-- What extraction comes to, and its result, when the source returns `ending` of its own accord. -/
inductive Extracts (fails : Nat → Option StorageError) (stored ds : List Diff)
    (ending : Except StorageError Unit) : Extraction → Except StorageError Unit → Prop where
  /-- The first occurrences of new diffs are stored, as far as their writes do not fail. -/
  | all (h : Reached fails 1 ds) :
      Extracts fails stored ds ending
        ⟨stored ++ firstsBeside id stored (unfailed fails 1 ds), ds.length, none⟩ ending
  /-- The write of `d` does not reach the table, and no diff behind it is written. -/
  | cutOff {front back : List Diff} {d : Diff} {e : StorageError} (hds : ds = front ++ d :: back)
      (h : Reached fails 1 front) (hd : fails (front.length + 1) = some e)
      (he : e.kind = .transport) :
      Extracts fails stored ds ending
        ⟨stored ++ firstsBeside id stored (unfailed fails 1 front), front.length + 1, some e⟩
        (.error e)

theorem unfailed_cons_of_none {n : Nat} (h : fails n = none) (d : Diff) (ds : List Diff) :
    unfailed fails n (d :: ds) = d :: unfailed fails (n + 1) ds := by
  simp [unfailed, List.zipIdx_cons, h]

theorem unfailed_cons_of_some {n : Nat} {e : StorageError} (h : fails n = some e) (d : Diff)
    (ds : List Diff) : unfailed fails n (d :: ds) = unfailed fails (n + 1) ds := by
  simp [unfailed, List.zipIdx_cons, h]

theorem reached_nil (n : Nat) : Reached fails n [] := fun _ h => absurd h List.not_mem_nil

theorem reached_cons {n : Nat} {d : Diff} {ds : List Diff} : Reached fails n (d :: ds) ↔
    (∀ e, fails n = some e → e.kind ≠ .transport) ∧ Reached fails (n + 1) ds := by
  rw [Reached, List.zipIdx_cons, List.forall_mem_cons]
  rfl

/-- Either all writes reach the table, or there is a first one that does not. -/
theorem reached_or_exists_first (fails : Nat → Option StorageError) (n : Nat) (ds : List Diff) :
    Reached fails n ds ∨ ∃ front d back e, ds = front ++ d :: back ∧ Reached fails n front ∧
      fails (front.length + n) = some e ∧ e.kind = .transport := by
  induction ds generalizing n with
  | nil => exact .inl (reached_nil n)
  | cons d ds ih =>
    by_cases hd : ∃ e, fails n = some e ∧ e.kind = .transport
    · obtain ⟨e, he, hkind⟩ := hd
      exact .inr ⟨[], d, ds, e, rfl, reached_nil n, by simpa using he, hkind⟩
    · have hfirst : ∀ e, fails n = some e → e.kind ≠ .transport :=
        fun e he hkind => hd ⟨e, he, hkind⟩
      rcases ih (n + 1) with hall | ⟨front, d', back, e, rfl, hfront, he, hkind⟩
      · exact .inl (reached_cons.2 ⟨hfirst, hall⟩)
      · refine .inr ⟨d :: front, d', back, e, rfl, reached_cons.2 ⟨hfirst, hfront⟩, ?_, hkind⟩
        rw [List.length_cons, Nat.add_right_comm]
        exact he

namespace Extraction

variable {s t : Extraction} {d : Diff}

theorem persist_of_none (hs : s.failure = none) (h : fails (s.writes + 1) = none) (d : Diff) :
    s.persist fails d = ⟨addNew id s.stored d, s.writes + 1, none⟩ := by
  by_cases hd : d ∈ s.stored
  · simp [persist, write, addNew, hs, h, hd, StorageError.kind]
  · simp [persist, write, addNew, hs, h, hd]

theorem persist_of_some (hs : s.failure = none) {e : StorageError}
    (h : fails (s.writes + 1) = some e) (d : Diff) :
    s.persist fails d =
      ⟨s.stored, s.writes + 1, if e.kind = .transport then some e else none⟩ := by
  simp [persist, write, hs, h]

/-- Writes that reach the table store the first occurrences of new diffs. -/
theorem foldl_persist_of_reached {ds : List Diff} (hs : s.failure = none)
    (h : Reached fails (s.writes + 1) ds) :
    ds.foldl (persist fails) s =
      ⟨s.stored ++ firstsBeside id s.stored (unfailed fails (s.writes + 1) ds),
        s.writes + ds.length, none⟩ := by
  rw [← foldl_addNew]
  induction ds generalizing s with
  | nil => rw [← hs]; rfl
  | cons d ds ih =>
    obtain ⟨hfirst, hrest⟩ := reached_cons.1 h
    have hwrites : s.writes + (d :: ds).length = s.writes + 1 + ds.length := by
      rw [List.length_cons]
      omega
    cases hd : fails (s.writes + 1) with
    | none =>
      rw [List.foldl_cons, persist_of_none hs hd, ih rfl hrest, unfailed_cons_of_none hd, hwrites]
      rfl
    | some e =>
      rw [List.foldl_cons, persist_of_some hs hd, if_neg (hfirst e hd), ih rfl hrest,
        unfailed_cons_of_some hd, hwrites]

theorem foldl_persist_start {ds : List Diff} (stored : List Diff) (h : Reached fails 1 ds) :
    ds.foldl (persist fails) (.start stored) =
      ⟨stored ++ firstsBeside id stored (unfailed fails 1 ds), ds.length, none⟩ := by
  rw [foldl_persist_of_reached rfl h]
  simp only [start, Nat.zero_add]

/-- **What diffs that are written one after the other come to.** -/
theorem extracts_foldl (fails : Nat → Option StorageError) (stored ds : List Diff)
    (ending : Except StorageError Unit) :
    Extracts fails stored ds ending (ds.foldl (persist fails) (.start stored))
      ((ds.foldl (persist fails) (.start stored)).result ending) := by
  rcases reached_or_exists_first fails 1 ds with hall | ⟨front, d, back, e, hds, hfront, hd, he⟩
  · rw [foldl_persist_start stored hall]
    exact .all hall
  · have hstop : ds.foldl (persist fails) (.start stored) =
        ⟨stored ++ firstsBeside id stored (unfailed fails 1 front), front.length + 1, some e⟩ := by
      rw [hds, List.foldl_append, foldl_persist_start stored hfront, List.foldl_cons,
        persist_of_some rfl hd, if_pos he, foldl_persist_of_failure rfl]
    rw [hstop]
    exact .cutOff hds hfront hd he

/-! ## Once more -/

theorem stored_subset_persist (fails : Nat → Option StorageError) (s : Extraction) (d : Diff) :
    s.stored ⊆ (s.persist fails d).stored := by
  cases hs : s.failure with
  | some e => rw [persist, if_pos (by rw [hs]; rfl)]; exact List.Subset.refl _
  | none =>
    cases hd : fails (s.writes + 1) with
    | some e => rw [persist_of_some hs hd]; exact List.Subset.refl _
    | none =>
      rw [persist_of_none hs hd, addNew]
      split
      · exact List.Subset.refl _
      · exact List.subset_append_left _ _

theorem stored_subset_foldl (fails : Nat → Option StorageError) (s : Extraction) (ds : List Diff) :
    s.stored ⊆ (ds.foldl (persist fails) s).stored := by
  induction ds generalizing s with
  | nil => exact List.Subset.refl _
  | cons d ds ih => exact List.Subset.trans (stored_subset_persist fails s d) (ih _)

theorem mem_stored_persist (hs : s.failure = none) (h : fails (s.writes + 1) = none) (d : Diff) :
    d ∈ (s.persist fails d).stored := by
  rw [persist_of_none hs h, addNew]
  split
  · next hmem => simpa using hmem
  · exact List.mem_append_right _ (List.mem_singleton.2 rfl)

theorem writes_persist (hs : s.failure = none) (d : Diff) :
    (s.persist fails d).writes = s.writes + 1 := by
  cases h : fails (s.writes + 1) with
  | none => rw [persist_of_none hs h]
  | some e => rw [persist_of_some hs h]

/-- Where a second run, at `t`, is beside a first one, at `s`: it has written as much and has not ended
later. -/
structure Again (s t : Extraction) : Prop where
  writes : s.writes = t.writes
  failure : t.failure = none → s.failure = none

section Again

variable {fails' : Nat → Option StorageError} (hfails : ∀ n e, fails n = some e → fails' n = some e)

include hfails

/-- A second run in which the writes that failed fail again stays beside the first one. -/
theorem Again.persist (h : Again s t) (ht : t.failure = none) (d : Diff) :
    Again (s.persist fails d) (t.persist fails' d) where
  writes := by rw [writes_persist (h.failure ht), writes_persist ht, h.writes]
  failure ht' := by
    have hs := h.failure ht
    cases hd : fails (s.writes + 1) with
    | none => rw [persist_of_none hs hd]
    | some e =>
      have hd' := hfails _ _ hd
      rw [h.writes] at hd'
      rw [persist_of_some ht hd'] at ht'
      rw [persist_of_some hs hd]
      exact ht'

/-- A diff that is there, if its write went through in the first run, is not stored in the second one. -/
theorem Again.stored_persist (h : Again s t) (ht : t.failure = none)
    (hmem : d ∈ (s.persist fails d).stored → d ∈ t.stored) :
    (t.persist fails' d).stored = t.stored := by
  cases hd' : fails' (t.writes + 1) with
  | some e => rw [persist_of_some ht hd']
  | none =>
    have hd : fails (s.writes + 1) = none := by
      cases hd : fails (s.writes + 1) with
      | none => rfl
      | some e =>
        have hagain := hfails _ _ hd
        rw [h.writes, hd'] at hagain
        contradiction
    have hstored : d ∈ t.stored := hmem (mem_stored_persist (h.failure ht) hd d)
    rw [persist_of_none ht hd', addNew, if_pos (by simpa using hstored)]

/-- Diffs that are written once more change nothing, if all that the first run leaves is there. -/
theorem stored_foldl_again {ds : List Diff} (h : Again s t)
    (hstored : (ds.foldl (persist fails) s).stored ⊆ t.stored) :
    (ds.foldl (Extraction.persist fails') t).stored = t.stored := by
  induction ds generalizing s t with
  | nil => rfl
  | cons d ds ih =>
    cases ht : t.failure with
    | some e => rw [foldl_persist_of_failure (by rw [ht]; rfl)]
    | none =>
      have hstay := h.stored_persist hfails ht fun hd => hstored (stored_subset_foldl fails _ ds hd)
      rw [List.foldl_cons, ih (h.persist hfails ht d) (by rw [hstay]; exact hstored), hstay]

end Again

/-! ## Bursts -/

theorem foldl_take (s : Extraction) (ms : List SourceMessage) :
    ms.foldl (take fails) s = (diffsIn ms).foldl (persist fails) s := by
  induction ms generalizing s with
  | nil => rfl
  | cons m ms ih => cases m <;> exact ih _

theorem fill_append (diffs errors : Nat) (ms : List SourceMessage) :
    (fill diffs errors ms).1 ++ (fill diffs errors ms).2 = ms := by
  fun_induction fill diffs errors ms with
  | case1 | case2 | case3 => rfl
  | case4 _ _ _ _ _ ih | case5 _ _ _ _ _ ih => exact congrArg (_ :: ·) ih

theorem fill_ne_nil {capacity : Nat} (hcapacity : 0 < capacity) (m : SourceMessage)
    (ms : List SourceMessage) : (fill capacity capacity (m :: ms)).1 ≠ [] := by
  obtain ⟨n, rfl⟩ := Nat.exists_eq_succ_of_ne_zero (Nat.ne_of_gt hcapacity)
  cases m <;> exact List.cons_ne_nil _ _

theorem outcome_returns (s : Extraction) (sentAll : Bool) (ending : Except StorageError Unit) :
    s.outcome sentAll (.returns ending) = ⟨s, true, s.result ending⟩ := by
  cases hfailure : s.failure <;> simp [outcome, result, hfailure]

/-- A source that sends in bursts is worked off like one that sends one diff after the other. -/
theorem rounds_eq {capacity : Nat} (hcapacity : 0 < capacity) (ending : Except StorageError Unit)
    {steps : Nat} {bursts : List (List SourceMessage)}
    (hsteps : bursts.flatten.length + bursts.length < steps) :
    rounds fails capacity (.returns ending) steps s bursts =
      let last := (diffsIn bursts.flatten).foldl (persist fails) s
      ⟨last, true, last.result ending⟩ := by
  induction steps generalizing s bursts with
  | zero => omega
  | succ steps ih =>
    cases bursts with
    | nil => exact outcome_returns s true ending
    | cons burst bursts =>
      have hburst := fill_append capacity capacity burst
      have hdiffs : diffsIn (burst :: bursts).flatten =
          diffsIn (fill capacity capacity burst).1 ++
            diffsIn ((fill capacity capacity burst).2 ++ bursts.flatten) := by
        rw [List.flatten_cons, ← hburst, List.append_assoc]
        simp only [diffsIn, List.filterMap_append, fill_append]
      simp only [List.flatten_cons, List.length_append, List.length_cons] at hsteps
      simp only [rounds, hdiffs, List.foldl_append, foldl_take]
      split
      · next hfailure =>
        rw [foldl_persist_of_failure hfailure]
        exact outcome_returns _ _ _
      · split
        · next hunsent =>
          rw [ih (by omega), hunsent]
          rfl
        · next hunsent =>
          -- Something of the burst has been sent.
          have hlength := congrArg List.length hburst
          rw [List.length_append] at hlength
          have hsent : (fill capacity capacity burst).1.length ≠ 0 := by
            cases burst with
            | nil => exact absurd rfl hunsent
            | cons m ms => exact fun h => fill_ne_nil hcapacity m ms (List.eq_nil_of_length_eq_zero h)
          rw [ih, List.flatten_cons]
          simp only [List.flatten_cons, List.length_append, List.length_cons]
          omega

/-- A source that sends in bursts has all its diffs written one after the other. -/
theorem run_eq {capacity : Nat} (hcapacity : 0 < capacity) (s : Extraction)
    (bursts : List (List SourceMessage)) (ending : Except StorageError Unit) :
    run fails capacity s bursts (.returns ending) =
      let last := (diffsIn bursts.flatten).foldl (persist fails) s
      ⟨last, true, last.result ending⟩ :=
  rounds_eq hcapacity ending (Nat.lt_succ_self _)

/-- Whether a source returns or waits makes no difference to what is written. -/
theorem state_rounds (fails : Nat → Option StorageError) (capacity : Nat) (ending ending' : Ending)
    (steps : Nat) (s : Extraction) (bursts : List (List SourceMessage)) :
    (rounds fails capacity ending steps s bursts).state =
      (rounds fails capacity ending' steps s bursts).state := by
  have houtcome (s : Extraction) (sentAll : Bool) (ending : Ending) :
      (s.outcome sentAll ending).state = s := by
    unfold outcome
    split <;> rfl
  induction steps generalizing s bursts with
  | zero => rw [rounds, rounds, houtcome, houtcome]
  | succ steps ih =>
    cases bursts with
    | nil => exact (houtcome _ _ _).trans (houtcome _ _ _).symm
    | cons burst bursts =>
      simp only [rounds]
      split
      · rw [houtcome, houtcome]
      · exact ih _ _

theorem state_run {capacity : Nat} (hcapacity : 0 < capacity) (s : Extraction)
    (bursts : List (List SourceMessage)) (ending : Ending) :
    (run fails capacity s bursts ending).state = (diffsIn bursts.flatten).foldl (persist fails) s := by
  rw [run, state_rounds fails capacity ending (.returns (.ok ())), ← run, run_eq hcapacity]

/-! ## Once in the table -/

theorem nodup_persist (h : s.stored.Nodup) (d : Diff) : (s.persist fails d).stored.Nodup := by
  cases hs : s.failure with
  | some e =>
    rw [persist, if_pos (by rw [hs]; rfl)]
    exact h
  | none =>
    cases hd : fails (s.writes + 1) with
    | some e =>
      rw [persist_of_some hs hd]
      exact h
    | none =>
      rw [persist_of_none hs hd, addNew]
      split
      · exact h
      · next hnew =>
        rw [← List.concat_eq_append]
        exact h.concat (by simpa using hnew)

theorem nodup_foldl_persist (h : s.stored.Nodup) (ds : List Diff) :
    (ds.foldl (persist fails) s).stored.Nodup := by
  induction ds generalizing s with
  | nil => exact h
  | cons d ds ih => exact ih (nodup_persist h d)

/-- If no write fails, all that is sent is in the table. -/
theorem mem_stored_foldl {stored ds : List Diff} (hfails : ∀ n, fails n = none) (hd : d ∈ ds) :
    d ∈ (ds.foldl (persist fails) (.start stored)).stored := by
  obtain ⟨front, back, rfl⟩ := List.append_of_mem hd
  have hreached : Reached fails 1 front := fun x _ e he => by
    rw [hfails] at he
    contradiction
  have hfront := foldl_persist_start stored hreached
  rw [List.foldl_append, List.foldl_cons, hfront]
  exact stored_subset_foldl _ _ _ (mem_stored_persist rfl (hfails _) d)

end Extraction

/-! ## Beside the source -/

/-- **Each diff is stored once, and extraction stops when the table cannot be reached.** A source sends
messages through channels of any capacity and then returns. However the two run beside each other, both
come to an end and always to the same one: the first occurrences of new diffs are stored in the order in
which they are sent, up to the first write that does not reach the table, whose error is then the result.
A source that sends the same messages in bursts comes to the same. If the source is run again on what is
stored then, and the writes that failed fail again, it changes nothing. -/
theorem stores_each_once (fails : Nat → Option StorageError) {capacity : Nat}
    (hcapacity : 0 < capacity) (stored : List Diff) (ms : List SourceMessage)
    (ending : Except StorageError Unit) :
    ∃ s r, Extracts fails stored (diffsIn ms) ending s r ∧
      Pipeline.EndsWith fails capacity ending (fun p => p.extraction = s ∧ p.result? = some r)
        (.initial ms stored) ∧
      (∀ bursts : List (List SourceMessage), bursts.flatten = ms →
        Extraction.run fails capacity (.start stored) bursts (.returns ending) = ⟨s, true, r⟩) ∧
      ∀ fails' : Nat → Option StorageError, (∀ n e, fails n = some e → fails' n = some e) →
        ∀ (capacity' : Nat) (ending' : Except StorageError Unit), 0 < capacity' →
          Pipeline.EndsWith fails' capacity' ending'
            (fun p => p.extraction.stored = s.stored ∧ p.result?.isSome = true)
            (.initial ms s.stored) := by
  refine ⟨_, _, Extraction.extracts_foldl fails stored (diffsIn ms) ending,
    Pipeline.endsWith_initial hcapacity ms stored, ?_, ?_⟩
  · rintro bursts rfl
    exact Extraction.run_eq hcapacity _ bursts ending
  · intro fails' hfails capacity' ending' hcapacity'
    refine (Pipeline.endsWith_initial hcapacity' ms _).mono fun p hp => ?_
    obtain ⟨hextraction, hresult⟩ := hp
    refine ⟨?_, by rw [hresult]; rfl⟩
    rw [hextraction]
    exact Extraction.stored_foldl_again hfails (s := .start stored) ⟨rfl, fun _ => rfl⟩
      (List.Subset.refl _)

/-- A diff that is sent twice, an error in between, a diff whose write does not reach the table, and one
more. -/
theorem stores_each_once_sample :
    let d : UInt64 → Diff := fun height => ⟨default, default, height, default, default⟩
    let e : StorageError := .database (.pool "gone")
    let fails : Nat → Option StorageError := fun n => if n = 3 then some e else none
    let ms : List SourceMessage :=
      [.ok (d 1), .error (.rowMalformed 1), .ok (d 1), .ok (d 2), .ok (d 3)]
    0 < 1 ∧
      Pipeline.EndsWith fails 1 (.ok ())
        (fun p => p.extraction = ⟨[d 1], 3, some e⟩ ∧ p.result? = some (.error e))
        (.initial ms []) ∧
      Pipeline.EndsWith fails 1 (.ok ())
        (fun p => p.extraction.stored = [d 1] ∧ p.result?.isSome = true) (.initial ms [d 1]) := by
  intro d e fails ms
  obtain ⟨s, r, -, hends, hrun, hagain⟩ := stores_each_once fails Nat.zero_lt_one [] ms (.ok ())
  have hlast : Extraction.run fails 1 (.start []) [ms] (.returns (.ok ())) =
      ⟨⟨[d 1], 3, some e⟩, true, .error e⟩ := by rfl
  rw [hrun [ms] rfl] at hlast
  obtain ⟨rfl, -, rfl⟩ := Extraction.Outcome.mk.inj hlast
  exact ⟨Nat.zero_lt_one, hends, hagain fails (fun _ _ h => h) 1 (.ok ()) Nat.zero_lt_one⟩

end SlotIndex
