import Mathlib.Data.List.Nodup
import SlotIndex.Backfill.Run
import SlotIndex.Proofs.Backfill.Tiling

/-!
# Bins of a range

The bins of a range, one after the other, hold the heights of the range, each once and in order, also
where the range ends at the largest 64-bit number. No bin is empty, none occurs twice, and each but the
last has the size that was asked for. Where a list cannot hold them all, there are none.

* `splitRange_eq_invalidRange`, `splitRange_eq_zeroBatchSize`, `of_splitRange_eq_ok`: when there are bins.
* **`tiles_of_backfillBins`**, **`nodup_backfillBins`**: the bins of a backfill.
* `forall_hasRoom_iff`: when the heights of all bins can be listed.
* `Partitions`: bins that hold each height of a range once and in order.
* **`splitRange_partitions`**, `splitRange_without_room`: the bins of a range, and when there are none.
-/

namespace SlotIndex

variable {first last size : UInt64}

/-! ## When there are bins -/

theorem splitRange_eq_invalidRange :
    splitRange first last size = .error (.refused (.invalidRange first last)) ↔ last < first := by
  by_cases hlt : last < first
  · simp [splitRange, hlt]
  · by_cases hs : size = 0
    · simp [splitRange, hlt, hs]
    · simp only [splitRange, if_neg hlt, if_neg hs]
      split <;> simp [hlt]

theorem splitRange_eq_zeroBatchSize :
    splitRange first last size = .error (.refused .zeroBatchSize) ↔ first ≤ last ∧ size = 0 := by
  by_cases hlt : last < first
  · simp [splitRange, hlt]
  · by_cases hs : size = 0
    · simp [splitRange, hlt, hs, UInt64.not_lt.1 hlt]
    · simp only [splitRange, if_neg hlt, if_neg hs]
      split <;> simp [hs]

theorem of_splitRange_eq_ok {bins : List Bin} (h : splitRange first last size = .ok bins) :
    first ≤ last ∧ size ≠ 0 ∧ RoomForBins first last size := by
  have hle : first ≤ last := by
    refine UInt64.not_lt.1 fun hlt => ?_
    rw [splitRange_eq_invalidRange.2 hlt] at h
    contradiction
  have hs : size ≠ 0 := by
    intro hs
    rw [splitRange_eq_zeroBatchSize.2 ⟨hle, hs⟩] at h
    contradiction
  refine ⟨hle, hs, ?_⟩
  by_contra hroom
  rw [splitRange_eq_breakDown.2 ⟨hle, hs, hroom⟩] at h
  contradiction

/-! ## The bins of a backfill -/

/-- The heights that a bin of a backfill is to hold. -/
def usualSize (size : UInt64) : UInt64 := if size = 0 then defaultBatchSize else size

theorem usualSize_ne_zero (size : UInt64) : usualSize size ≠ 0 := by
  rw [usualSize]
  split
  · decide
  · assumption

/-- **The bins of a backfill tile its range.** -/
theorem tiles_of_backfillBins {bins : List Bin} (h : backfillBins first last size = .ok bins) :
    Tiles (usualSize size).toNat last first bins := by
  obtain ⟨hle, hs, hroom⟩ := of_splitRange_eq_ok h
  obtain ⟨found, hok, htiles, -⟩ := splitRange_eq_ok hle hs hroom
  cases h.symm.trans hok
  exact htiles

/-- There are bins for every range that does not end before it begins, unless there is no room for them. -/
theorem exists_backfillBins_iff (hle : first ≤ last) :
    (∃ bins, backfillBins first last size = .ok bins) ↔ RoomForBins first last (usualSize size) := by
  constructor
  · rintro ⟨bins, h⟩
    exact (of_splitRange_eq_ok h).2.2
  · intro hroom
    obtain ⟨bins, hok, -⟩ := splitRange_eq_ok hle (usualSize_ne_zero size) hroom
    exact ⟨bins, hok⟩

/-- **No bin of a range occurs twice**: a height of it would occur twice. -/
theorem nodup_backfillBins {bins : List Bin} (h : backfillBins first last size = .ok bins) :
    bins.Nodup := by
  have htiles := tiles_of_backfillBins h
  have hnodup := Bin.nodup_heights ⟨first, last⟩
  rw [← htiles.flatMap_heights, List.nodup_flatMap] at hnodup
  refine hnodup.2.imp_of_mem fun hb _ hdisjoint heq => ?_
  subst heq
  exact htiles.heights_ne_nil _ hb (List.eq_nil_iff_forall_not_mem.2 fun _ hm => hdisjoint hm hm)

/-- A list can hold the heights of a bin, also of a full one. -/
def RoomForHeights (first last size : UInt64) : Prop :=
  min size.toNat (last.toNat + 1 - first.toNat) * heightBytes ≤ maxBytes

/-- **The heights of all bins can be listed** where those of the first one can: no other holds more. -/
theorem forall_hasRoom_iff {bins : List Bin} (h : Tiles size.toNat last first bins) :
    (∀ b ∈ bins, b.hasRoom = true) ↔ RoomForHeights first last size := by
  have hroom : ∀ b : Bin, b.hasRoom = true ↔
      (b.last.toNat + 1 - b.first.toNat) * heightBytes ≤ maxBytes := fun b => decide_eq_true_iff
  simp only [hroom, RoomForHeights]
  induction h with
  | @ends first hle hsize =>
    rw [List.forall_mem_singleton, Nat.min_eq_right (by omega)]
  | @full first mid bins hle hlt hsize hrest ih =>
    have hfirst := UInt64.le_iff_toNat_le.1 hle
    have hmid := UInt64.lt_iff_toNat_lt.1 hlt
    have hnext := (toNat_next (Nat.le_of_lt hmid) (UInt64.ne_of_lt hlt)).2
    have hfull : mid.toNat + 1 - first.toNat = size.toNat := by omega
    have hless : min size.toNat (last.toNat + 1 - (mid + 1).toNat) ≤ size.toNat := Nat.min_le_left _ _
    rw [List.forall_mem_cons, hfull, Nat.min_eq_left (by omega)]
    exact ⟨And.left, fun hsizes => ⟨hsizes, ih.2 ((Nat.mul_le_mul_right _ hless).trans hsizes)⟩⟩

/-! ## The bins of a range -/

/-- Bins that hold each height of a range once and in order, full ones first, and that are all the bins
of the loop over the range. -/
structure Partitions (first last size : UInt64) (bins : List Bin) : Prop where
  heights : (bins.flatMap Bin.heights).map UInt64.toNat =
    List.range' first.toNat (last.toNat + 1 - first.toNat)
  heights_ne_nil : ∀ b ∈ bins, b.heights ≠ []
  full : ∀ b ∈ bins.dropLast, b.heights.length = size.toNat
  last_le : ∀ b ∈ bins.getLast?, b.heights.length ≤ size.toNat
  length : bins.length = (last.toNat + 1 - first.toNat) ⌈/⌉ size.toNat
  /-- The loop ends with the last bin, even if it is allowed more turns. -/
  loop : ∀ turns, binsFrom last size turns first = bins.take turns

theorem exists_partitions (hle : first ≤ last) (hs : size ≠ 0) (hroom : RoomForBins first last size) :
    ∃ bins, splitRange first last size = .ok bins ∧ Partitions first last size bins := by
  obtain ⟨bins, hok, htiles, hloop⟩ := splitRange_eq_ok hle hs hroom
  refine ⟨bins, hok, ?_, htiles.heights_ne_nil, htiles.full_of_mem_dropLast, htiles.length_heights_le,
    htiles.length_eq, hloop⟩
  rw [htiles.flatMap_heights, Bin.map_toNat_heights]

/-- **The bins of a range partition it.** They hold its heights, each once and in order; none is empty,
each but the last is full, and there are as many as the heights fill, rounded up. There are none for a
range that ends before it begins and for bins of no heights, and where a list cannot hold as many. -/
theorem splitRange_partitions (first last size : UInt64) :
    (first ≤ last → size ≠ 0 → RoomForBins first last size →
      ∃ bins, splitRange first last size = .ok bins ∧ Partitions first last size bins) ∧
    (splitRange first last size = .error (.refused (.invalidRange first last)) ↔ last < first) ∧
    (splitRange first last size = .error (.refused .zeroBatchSize) ↔ first ≤ last ∧ size = 0) ∧
    (splitRange first last size = .error .breakDown ↔
      first ≤ last ∧ size ≠ 0 ∧ ¬ RoomForBins first last size) ∧
    ((∃ fault, splitRange first last size = .error fault) ↔
      last < first ∨ size = 0 ∨ ¬ RoomForBins first last size) := by
  refine ⟨exists_partitions, splitRange_eq_invalidRange, splitRange_eq_zeroBatchSize,
    splitRange_eq_breakDown, ?_⟩
  constructor
  · rintro ⟨fault, hfault⟩
    by_contra hnot
    rw [not_or, not_or, UInt64.not_lt, not_not] at hnot
    obtain ⟨hle, hs, hroom⟩ := hnot
    obtain ⟨bins, hok, -⟩ := exists_partitions hle hs hroom
    rw [hok] at hfault
    contradiction
  · intro h
    cases hsplit : splitRange first last size with
    | error fault => exact ⟨fault, rfl⟩
    | ok bins =>
      obtain ⟨hle, hs, hroom⟩ := of_splitRange_eq_ok hsplit
      rcases h with hlt | hzero | hnone
      · exact absurd hlt (UInt64.not_lt.2 hle)
      · exact absurd hzero hs
      · exact absurd hroom hnone

/-- The last six heights there are, in bins of four. -/
theorem splitRange_partitions_top :
    let first : UInt64 := 18446744073709551610
    let bins : List Bin := [⟨first, 18446744073709551613⟩, ⟨18446744073709551614, maxHeight⟩]
    first ≤ maxHeight ∧ (4 : UInt64) ≠ 0 ∧ RoomForBins first maxHeight 4 ∧
      splitRange first maxHeight 4 = .ok bins ∧ Partitions first maxHeight 4 bins := by
  intro first bins
  have hle : first ≤ maxHeight := by decide
  have hs : (4 : UInt64) ≠ 0 := by decide
  have hsplit : splitRange first maxHeight 4 = .ok bins := by decide
  have hroom : RoomForBins first maxHeight 4 := (of_splitRange_eq_ok hsplit).2.2
  obtain ⟨found, hok, hpartitions⟩ := (splitRange_partitions first maxHeight 4).1 hle hs hroom
  rw [hsplit] at hok
  cases hok
  exact ⟨hle, hs, hroom, hsplit, hpartitions⟩

/-- All heights there are, in bins of two: no list holds half as many bins as there are heights. -/
theorem splitRange_without_room :
    (0 : UInt64) ≤ maxHeight ∧ (2 : UInt64) ≠ 0 ∧ splitRange 0 maxHeight 2 = .error .breakDown := by
  decide

end SlotIndex
