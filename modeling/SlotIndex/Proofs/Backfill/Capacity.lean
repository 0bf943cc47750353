import SlotIndex.Proofs.Backfill.Tiling

/-!
# Arithmetic on the bins of a range

All additions and subtractions that split a range stay within the 64-bit numbers, but for one range and one
size: there are as many heights as 64-bit numbers, so that the number of bins is none when every height is
a bin of its own.

* `add?`, `sub?`: operations that do not wrap around.
* `binsInRange?`, `splitInRange?`: the bins of a range with these operations.
* **`binsInRange?_eq`**: the loop stays in range for every range and every size but zero.
* `EachApart`, `div_add_one_lt_iff`, `EachApart.binCapacity_eq`: the number of bins.
* `splitInRange?_eq`: the whole function.
* **`splitRange_in_range`**, `capacity_wraps`.
-/

namespace SlotIndex

/-- The sum of two 64-bit numbers, if it is one. -/
def add? (a b : UInt64) : Option UInt64 :=
  if a.toNat + b.toNat < UInt64.size then some (a + b) else none

/-- The difference of two 64-bit numbers, if it is one. -/
def sub? (a b : UInt64) : Option UInt64 :=
  if b ≤ a then some (a - b) else none

/-- The bins from a height on, if all sums and differences on the way are 64-bit numbers. -/
def binsInRange? (last size : UInt64) : (steps : Nat) → (first : UInt64) → Option (List Bin)
  | 0, _ => some []
  | steps + 1, first =>
    (sub? size 1).bind fun more =>
      let binLast := min (saturatingAdd first more) last
      if binLast = last then some [⟨first, binLast⟩]
      else (add? binLast 1).bind fun next =>
        (binsInRange? last size steps next).map (⟨first, binLast⟩ :: ·)

/-- The bins of a range or why there are none, if all sums and differences on the way are 64-bit numbers. -/
def splitInRange? (first last size : UInt64) : Option (Except SplitFault (List Bin)) :=
  if last < first then some (.error (.refused (.invalidRange first last)))
  else if size = 0 then some (.error (.refused .zeroBatchSize))
  else
    (sub? last first).bind fun span =>
      (add? (span / size) 1).bind fun capacity =>
        if listFits capacity.toNat binBytes = false then some (.error .breakDown)
        else (binsInRange? last size capacity.toNat first).map .ok

/-- Every 64-bit number is a height of the range, and every height is a bin of its own. -/
def EachApart (first last size : UInt64) : Prop := first = 0 ∧ last = maxHeight ∧ size = 1

instance (first last size : UInt64) : Decidable (EachApart first last size) :=
  inferInstanceAs (Decidable (_ ∧ _))

variable {first last size a b : UInt64} {bins : List Bin}

theorem add?_of_lt (h : a.toNat + b.toNat < UInt64.size) : add? a b = some (a + b) := if_pos h

theorem sub?_of_le (h : b ≤ a) : sub? a b = some (a - b) := if_pos h

/-! ## The loop -/

/-- **The loop stays in range**: it stops at the end of the range before it looks for another bin, so that
the bins that are followed by one end below it. -/
theorem binsInRange?_eq (hle : first ≤ last) (hs : size ≠ 0) (steps : Nat) :
    binsInRange? last size steps first = some (binsFrom last size steps first) := by
  induction steps generalizing first with
  | zero => rfl
  | succ steps ih =>
    have hsize : 1 ≤ size := UInt64.le_iff_toNat_le.2 (toNat_pos_of_ne_zero hs)
    have hbin := toNat_binLast hs first last
    rw [binsInRange?, binsFrom, sub?_of_le hsize, Option.bind_some]
    generalize min (saturatingAdd first (size - 1)) last = binLast at hbin
    have hlast := last.toNat_lt
    by_cases hend : binLast = last
    · simp only [if_pos hend]
    · obtain ⟨hlt, hnext⟩ := toNat_next (by omega) hend
      have hadd : add? binLast 1 = some (binLast + 1) := by
        refine add?_of_lt ?_
        change binLast.toNat + 1 < 18446744073709551616
        omega
      have hmore : binLast + 1 ≤ last := UInt64.le_iff_toNat_le.2 (by omega)
      simp only [if_neg hend, hadd, Option.bind_some, ih hmore, Option.map_some]

/-! ## The number of bins -/

theorem eachApart_iff : EachApart first last size ↔
    first.toNat = 0 ∧ last.toNat = 18446744073709551615 ∧ size.toNat = 1 := by
  rw [EachApart, ← UInt64.toNat_inj, ← UInt64.toNat_inj, ← UInt64.toNat_inj]
  rfl

/-- **The number of bins is a 64-bit number** for all ranges and sizes but one. -/
theorem div_add_one_lt_iff (hle : first ≤ last) (hs : size ≠ 0) :
    (last.toNat - first.toNat) / size.toNat + 1 < UInt64.size ↔ ¬ EachApart first last size := by
  have hle' := UInt64.le_iff_toNat_le.1 hle
  have hpos := toNat_pos_of_ne_zero hs
  have hlast := last.toNat_lt
  have hdiv : (last.toNat - first.toNat) / size.toNat < 18446744073709551615 ↔
      last.toNat - first.toNat < 18446744073709551615 * size.toNat := Nat.div_lt_iff_lt_mul hpos
  rw [eachApart_iff]
  change _ < 18446744073709551616 ↔ _
  omega

theorem EachApart.div_add_one_eq (h : EachApart first last size) :
    (last.toNat - first.toNat) / size.toNat + 1 = UInt64.size := by
  obtain ⟨rfl, rfl, rfl⟩ := h
  rfl

/-- The number of bins that room is made for is none where every height is a bin of its own. -/
theorem EachApart.binCapacity_eq (h : EachApart first last size) : binCapacity first last size = 0 := by
  obtain ⟨rfl, rfl, rfl⟩ := h
  rfl

theorem toNat_binCapacity_of_not (hle : first ≤ last) (hs : size ≠ 0)
    (hapart : ¬ EachApart first last size) :
    (binCapacity first last size).toNat = (last.toNat - first.toNat) / size.toNat + 1 := by
  rw [toNat_binCapacity hle]
  exact Nat.mod_eq_of_lt ((div_add_one_lt_iff hle hs).2 hapart)

/-! ## Splitting -/

/-- **Splitting a range stays in range**, except where every height is a bin of its own. -/
theorem splitInRange?_eq (first last size : UInt64) : splitInRange? first last size =
    if EachApart first last size then none else some (splitRange first last size) := by
  unfold splitInRange? splitRange
  by_cases hrange : last < first
  · have hnot : ¬ EachApart first last size := by
      rintro ⟨rfl, -, -⟩
      exact absurd (UInt64.lt_iff_toNat_lt.1 hrange) (Nat.not_lt_zero _)
    rw [if_pos hrange, if_pos hrange, if_neg hnot]
  · rw [if_neg hrange, if_neg hrange]
    by_cases hs : size = 0
    · have hnot : ¬ EachApart first last size := by
        rintro ⟨-, -, rfl⟩
        exact absurd hs (by decide)
      rw [if_pos hs, if_pos hs, if_neg hnot]
    · have hle : first ≤ last := UInt64.not_lt.1 hrange
      have hcount := div_add_one_lt_iff hle hs
      have hsum : ((last - first) / size).toNat + (1 : UInt64).toNat =
          (last.toNat - first.toNat) / size.toNat + 1 := by
        rw [UInt64.toNat_div, toNat_span hle]
        rfl
      rw [if_neg hs, if_neg hs, sub?_of_le hle, Option.bind_some]
      by_cases hapart : EachApart first last size
      · have hnone : add? ((last - first) / size) 1 = none :=
          if_neg fun hlt => hcount.1 (hsum ▸ hlt) hapart
        rw [hnone, if_pos hapart]
        rfl
      · have hsome : add? ((last - first) / size) 1 = some (binCapacity first last size) :=
          add?_of_lt (hsum.symm ▸ hcount.2 hapart)
        have hne : binCapacity first last size ≠ 0 := by
          intro hzero
          have hcapacity := toNat_binCapacity_of_not hle hs hapart
          rw [hzero] at hcapacity
          exact Nat.succ_ne_zero _ hcapacity.symm
        rw [hsome, if_neg hapart, Option.bind_some]
        simp only [hne, false_or, binsInRange?_eq hle hs, Option.map_some]
        split <;> rfl

/-- **What splitting computes stays in range.** Only where every height is a bin of its own there are more
bins than 64-bit numbers, and the room that is made for them is none at all. The loop that yields them stays in
range there, too. The range is split into them unless a list cannot hold as many. -/
theorem splitRange_in_range (first last size : UInt64) :
    splitInRange? first last size =
      (if EachApart first last size then none else some (splitRange first last size)) ∧
    (first ≤ last → size ≠ 0 →
      ∃ bins, (∀ turns, binsFrom last size turns first = bins.take turns) ∧
        splitRange first last size =
          (if listFits bins.length binBytes then .ok bins else .error .breakDown) ∧
        bins.length = (last.toNat - first.toNat) / size.toNat + 1 ∧
        (bins.length < UInt64.size ↔ ¬ EachApart first last size) ∧
        (binCapacity first last size).toNat =
          (if EachApart first last size then 0 else bins.length) ∧
        (∀ b ∈ bins.dropLast, b.last.toNat + 1 < UInt64.size) ∧
        binsInRange? last size bins.length first = some bins) := by
  refine ⟨splitInRange?_eq first last size, fun hle hs => ?_⟩
  obtain ⟨bins, htiles, hloop⟩ := exists_tiles hle hs
  have hlength := htiles.length_eq_div hle hs
  have hcount := div_add_one_lt_iff hle hs
  have hfits : RoomForBins first last size ↔ listFits bins.length binBytes = true := by
    rw [RoomForBins, ceilDiv_eq_div_add_one hle hs, ← hlength, listFits, decide_eq_true_iff]
  refine ⟨bins, hloop, ?_, hlength, hlength ▸ hcount, ?_, fun b hb => ?_, ?_⟩
  · by_cases hroom : RoomForBins first last size
    · obtain ⟨found, hok, -, hfound⟩ := splitRange_eq_ok hle hs hroom
      have hsame : found = bins := by
        have htake := (hfound (found.length + bins.length)).symm.trans (hloop _)
        rwa [List.take_of_length_le (Nat.le_add_right _ _),
          List.take_of_length_le (Nat.le_add_left _ _)] at htake
      rw [if_pos (hfits.1 hroom), hok, hsame]
    · rw [if_neg (mt hfits.2 hroom)]
      exact splitRange_eq_breakDown.2 ⟨hle, hs, hroom⟩
  · split
    · next hapart => rw [hapart.binCapacity_eq, UInt64.toNat_zero]
    · next hapart => rw [toNat_binCapacity_of_not hle hs hapart, hlength]
  · have hlt := UInt64.lt_iff_toNat_lt.1 (htiles.last_lt_of_mem_dropLast b hb)
    have hlast : last.toNat < UInt64.size := last.toNat_lt
    omega
  · rw [binsInRange?_eq hle hs, hloop, List.take_length]

/-- Two bins that end at the largest number, and the largest range and the smallest size that stay in range. -/
theorem splitRange_in_range_top :
    (1 : UInt64) ≤ maxHeight ∧ (1 : UInt64) ≠ 0 ∧
      splitInRange? 0 maxHeight maxHeight = some (.ok [⟨0, maxHeight - 1⟩, ⟨maxHeight, maxHeight⟩]) ∧
      ∃ bins, bins.length = 18446744073709551615 ∧ binsInRange? maxHeight 1 bins.length 1 = some bins ∧
        (binCapacity 1 maxHeight 1).toNat = bins.length := by
  have hle : (1 : UInt64) ≤ maxHeight := by decide
  have hs : (1 : UInt64) ≠ 0 := by decide
  have hapart : ¬ EachApart 1 maxHeight 1 := by decide
  obtain ⟨bins, -, -, hlength, -, hroom, -, hloop⟩ := (splitRange_in_range 1 maxHeight 1).2 hle hs
  rw [if_neg hapart] at hroom
  exact ⟨hle, hs, (splitRange_in_range 0 maxHeight maxHeight).1.trans rfl, bins, hlength, hloop, hroom⟩

/-- The sum for the room wraps around where every 64-bit number is a bin of its own. -/
theorem capacity_wraps :
    splitInRange? 0 maxHeight 1 = none ∧ binCapacity 0 maxHeight 1 = 0 ∧
      splitRange 0 maxHeight 1 = .error .breakDown ∧
      ∃ bins : List Bin, (∀ turns, binsFrom maxHeight 1 turns 0 = bins.take turns) ∧
        bins.length = 18446744073709551616 := by
  have hapart : EachApart 0 maxHeight 1 := ⟨rfl, rfl, rfl⟩
  have hle : (0 : UInt64) ≤ maxHeight := by decide
  have hs : (1 : UInt64) ≠ 0 := by decide
  obtain ⟨bins, htiles, hloop⟩ := exists_tiles hle hs
  have hlength : bins.length = 18446744073709551616 :=
    (htiles.length_eq_div hle hs).trans hapart.div_add_one_eq
  refine ⟨?_, hapart.binCapacity_eq, by decide, bins, hloop, hlength⟩
  rw [splitInRange?_eq, if_pos hapart]

end SlotIndex
