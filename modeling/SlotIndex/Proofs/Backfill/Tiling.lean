import Mathlib.Algebra.Order.Floor.Div
import SlotIndex.Backfill.Range

/-!
# Bins of one size

A range is tiled by bins that follow each other, of which each but the last is full. The loop over the
bins finds such a tiling for every range and every size but zero, and comes to its end by itself, also
where the range ends at the largest 64-bit number. The range is split into these bins where a list can
hold as many.

* `Bin.heights_append`: bins that follow each other.
* `toNat_binLast`, `toNat_next`: the ends of bins, without wrap-around.
* `Tiles`: bins that follow each other up to the end of a range; `Tiles.flatMap_heights`,
  `Tiles.full_of_mem_dropLast`, `Tiles.length_heights_le`, `Tiles.length_eq` and
  `Tiles.last_lt_of_mem_dropLast` say what that comes to.
* **`exists_tiles`**: what the loop yields, however many turns it is allowed.
* `RoomForBins`: a list can hold the bins; `toNat_binCapacity`, `noCapacity_iff`.
* **`splitRange_eq_ok`**: the bins of a range.
-/

namespace SlotIndex

namespace Bin

theorem heights_eq (b : Bin) : b.heights =
    (List.range' b.first.toNat (b.last.toNat + 1 - b.first.toNat)).map UInt64.ofNat := by
  rw [heights, List.range'_eq_map_range, List.map_map]
  rfl

theorem heights_append {first mid next last : UInt64} (h : first ≤ mid) (hm : mid < last)
    (hn : next.toNat = mid.toNat + 1) :
    heights ⟨first, mid⟩ ++ heights ⟨next, last⟩ = heights ⟨first, last⟩ := by
  have h₁ := UInt64.le_iff_toNat_le.1 h
  have h₂ := UInt64.lt_iff_toNat_lt.1 hm
  obtain ⟨n, hn₁⟩ : ∃ n, mid.toNat + 1 = first.toNat + n := ⟨mid.toNat + 1 - first.toNat, by omega⟩
  obtain ⟨m, hm₁⟩ : ∃ m, last.toNat + 1 = first.toNat + n + m :=
    ⟨last.toNat + 1 - first.toNat - n, by omega⟩
  simp only [heights_eq]
  rw [hn, hn₁, hm₁, ← List.map_append, Nat.add_sub_cancel_left, Nat.add_sub_cancel_left,
    List.range'_append_1, Nat.add_assoc, Nat.add_sub_cancel_left]

theorem length_heights (first last : UInt64) :
    (heights ⟨first, last⟩).length = last.toNat + 1 - first.toNat := by
  simp [heights]

theorem heights_ne_nil {b : Bin} (h : b.first ≤ b.last) : b.heights ≠ [] := by
  have hle := UInt64.le_iff_toNat_le.1 h
  have hlength := length_heights b.first b.last
  intro hnil
  change b.heights.length = _ at hlength
  rw [hnil, List.length_nil] at hlength
  omega

/-- The heights of a bin as natural numbers: none of them wraps around. -/
theorem map_toNat_heights (b : Bin) :
    b.heights.map UInt64.toNat = List.range' b.first.toNat (b.last.toNat + 1 - b.first.toNat) := by
  have hlast := b.last.toNat_lt
  have hsame : ∀ n ∈ List.range' b.first.toNat (b.last.toNat + 1 - b.first.toNat),
      (UInt64.toNat ∘ UInt64.ofNat) n = n := by
    intro n hn
    rw [List.mem_range'_1] at hn
    have hlt : n < UInt64.size := by
      change n < 18446744073709551616
      omega
    exact UInt64.toNat_ofNat_of_lt' hlt
  rw [heights_eq, List.map_map, List.map_congr_left hsame, List.map_id']

theorem nodup_heights (b : Bin) : b.heights.Nodup := by
  apply List.Nodup.of_map UInt64.toNat
  rw [map_toNat_heights]
  exact List.nodup_range'

end Bin

/-! ## The ends of bins -/

theorem toNat_maxHeight : maxHeight.toNat = 18446744073709551615 := rfl

theorem toNat_saturatingAdd (a b : UInt64) :
    (saturatingAdd a b).toNat = min (a.toNat + b.toNat) maxHeight.toNat := by
  have ha := a.toNat_lt
  have hb := b.toNat_lt
  have hadd := UInt64.toNat_add a b
  have hmax := toNat_maxHeight
  have hlt : a + b < a ↔ (a + b).toNat < a.toNat := UInt64.lt_iff_toNat_lt
  by_cases h : (a + b).toNat < a.toNat
  · rw [saturatingAdd, if_pos (hlt.2 h)]
    omega
  · rw [saturatingAdd, if_neg (mt hlt.1 h)]
    omega

theorem toNat_min (a b : UInt64) : (min a b).toNat = min a.toNat b.toNat := by
  have hle : a ≤ b ↔ a.toNat ≤ b.toNat := UInt64.le_iff_toNat_le
  change (if a ≤ b then a else b).toNat = _
  by_cases h : a.toNat ≤ b.toNat
  · rw [if_pos (hle.2 h), Nat.min_eq_left h]
  · rw [if_neg (mt hle.1 h), Nat.min_eq_right (by omega)]

theorem toNat_pos_of_ne_zero {n : UInt64} (h : n ≠ 0) : 0 < n.toNat :=
  Nat.pos_of_ne_zero fun h0 => h (UInt64.toNat_inj.1 h0)

theorem toNat_span {first last : UInt64} (h : first ≤ last) :
    (last - first).toNat = last.toNat - first.toNat :=
  UInt64.toNat_sub_of_le _ _ h

/-- The last height of the bin that begins at a height. -/
theorem toNat_binLast {size : UInt64} (hs : size ≠ 0) (first last : UInt64) :
    (min (saturatingAdd first (size - 1)) last).toNat =
      min (first.toNat + (size.toNat - 1)) last.toNat := by
  have hpos := toNat_pos_of_ne_zero hs
  have hsub : (size - 1).toNat = size.toNat - 1 :=
    UInt64.toNat_sub_of_le _ _ (UInt64.le_iff_toNat_le.2 hpos)
  have hlast := last.toNat_lt
  have hmax := toNat_maxHeight
  rw [toNat_min, toNat_saturatingAdd, hsub]
  omega

/-- The first height of the next bin, without wrap-around: a bin that does not end the range ends before
its last height. -/
theorem toNat_next {binLast last : UInt64} (hle : binLast.toNat ≤ last.toNat) (hne : binLast ≠ last) :
    binLast.toNat < last.toNat ∧ (binLast + 1).toNat = binLast.toNat + 1 := by
  have hne' : binLast.toNat ≠ last.toNat := fun h => hne (UInt64.toNat_inj.1 h)
  have hlast := last.toNat_lt
  rw [UInt64.toNat_add, UInt64.toNat_one]
  omega

/-- The heights of a range divided by a size, rounded up, as it is computed from the ends of the range. -/
theorem ceilDiv_eq_div_add_one {first last size : UInt64} (hle : first ≤ last) (hs : size ≠ 0) :
    (last.toNat + 1 - first.toNat) ⌈/⌉ size.toNat = (last.toNat - first.toNat) / size.toNat + 1 := by
  have hle' := UInt64.le_iff_toNat_le.1 hle
  have hpos := toNat_pos_of_ne_zero hs
  have hceil : last.toNat + 1 - first.toNat + size.toNat - 1 =
      (last.toNat - first.toNat) + size.toNat := by omega
  rw [Nat.ceilDiv_eq_add_pred_div, hceil, Nat.add_div_right _ hpos]

/-! ## Tilings -/

/-- Bins of `size` heights that follow each other from `first` up to `last`. The last one ends the range
and may hold fewer. -/
inductive Tiles (size : Nat) (last : UInt64) : (first : UInt64) → List Bin → Prop where
  | ends {first : UInt64} (hle : first ≤ last) (hsize : last.toNat < first.toNat + size) :
      Tiles size last first [⟨first, last⟩]
  | full {first mid : UInt64} {bins : List Bin} (hle : first ≤ mid) (hlt : mid < last)
      (hsize : mid.toNat + 1 = first.toNat + size) (hrest : Tiles size last (mid + 1) bins) :
      Tiles size last first (⟨first, mid⟩ :: bins)

namespace Tiles

variable {size : Nat} {first last : UInt64} {bins : List Bin}

theorem ne_nil (h : Tiles size last first bins) : bins ≠ [] := by
  cases h <;> exact List.cons_ne_nil _ _

/-- **The bins hold the heights of the range**, one bin after the other. -/
theorem flatMap_heights (h : Tiles size last first bins) :
    bins.flatMap Bin.heights = Bin.heights ⟨first, last⟩ := by
  induction h with
  | ends _ _ => simp
  | @full first mid bins hle hlt _ _ ih =>
    have hmid := UInt64.lt_iff_toNat_lt.1 hlt
    have hnext := (toNat_next (Nat.le_of_lt hmid) (UInt64.ne_of_lt hlt)).2
    rw [List.flatMap_cons, ih, Bin.heights_append hle hlt hnext]

theorem heights_ne_nil (h : Tiles size last first bins) : ∀ b ∈ bins, b.heights ≠ [] := by
  induction h with
  | ends hle _ =>
    intro b hb
    rw [List.mem_singleton.1 hb]
    exact Bin.heights_ne_nil hle
  | full hle _ _ _ ih =>
    intro b hb
    rcases List.mem_cons.1 hb with rfl | hb
    · exact Bin.heights_ne_nil hle
    · exact ih b hb

/-- **Each bin but the last is full.** -/
theorem full_of_mem_dropLast (h : Tiles size last first bins) :
    ∀ b ∈ bins.dropLast, b.heights.length = size := by
  induction h with
  | ends _ _ => simp
  | full hle _ hsize hrest ih =>
    intro b hb
    rw [List.dropLast_cons_of_ne_nil hrest.ne_nil] at hb
    rcases List.mem_cons.1 hb with rfl | hb
    · rw [Bin.length_heights]
      omega
    · exact ih b hb

theorem length_heights_le (h : Tiles size last first bins) :
    ∀ b ∈ bins.getLast?, b.heights.length ≤ size := by
  induction h with
  | @ends first _ hsize =>
    intro b hb
    obtain rfl : ⟨first, last⟩ = b := Option.some.inj hb
    rw [Bin.length_heights]
    omega
  | full _ _ _ hrest ih =>
    intro b hb
    rw [List.getLast?_cons_of_ne_nil hrest.ne_nil] at hb
    exact ih b hb

/-- **The number of bins** is that of the heights divided by the size, rounded up. -/
theorem length_eq (h : Tiles size last first bins) :
    bins.length = (last.toNat + 1 - first.toNat) ⌈/⌉ size := by
  induction h with
  | @ends first hle hsize =>
    have hle' := UInt64.le_iff_toNat_le.1 hle
    rw [Nat.ceilDiv_eq_add_pred_div, List.length_singleton]
    symm
    rw [Nat.div_eq_iff (by omega)]
    omega
  | @full first mid bins hle hlt hsize hrest ih =>
    have hmid := UInt64.lt_iff_toNat_lt.1 hlt
    have hnext := (toNat_next (Nat.le_of_lt hmid) (UInt64.ne_of_lt hlt)).2
    have hfirst := UInt64.le_iff_toNat_le.1 hle
    have hsplit : last.toNat + 1 - first.toNat + size - 1 =
        (last.toNat + 1 - (mid + 1).toNat + size - 1) + size := by omega
    have hpos : 0 < size := by omega
    rw [List.length_cons, ih, Nat.ceilDiv_eq_add_pred_div, Nat.ceilDiv_eq_add_pred_div, hsplit,
      Nat.add_div_right _ hpos]

/-- The same number as it is computed from the ends of the range. -/
theorem length_eq_div {size : UInt64} (h : Tiles size.toNat last first bins) (hle : first ≤ last)
    (hs : size ≠ 0) : bins.length = (last.toNat - first.toNat) / size.toNat + 1 := by
  rw [h.length_eq, ceilDiv_eq_div_add_one hle hs]

/-- A bin with another one behind it ends below the end of the range. -/
theorem last_lt_of_mem_dropLast (h : Tiles size last first bins) :
    ∀ b ∈ bins.dropLast, b.last < last := by
  induction h with
  | ends _ _ => simp
  | full _ hlt _ hrest ih =>
    rw [List.dropLast_cons_of_ne_nil hrest.ne_nil, List.forall_mem_cons]
    exact ⟨hlt, ih⟩

end Tiles

/-! ## The loop -/

/-- **What the loop yields.** It comes to its end by itself, so that its turns need not be counted. -/
theorem exists_tiles {first last size : UInt64} (hle : first ≤ last) (hs : size ≠ 0) :
    ∃ bins, Tiles size.toNat last first bins ∧
      ∀ turns, binsFrom last size turns first = bins.take turns := by
  -- The heights that are left get fewer with each turn.
  obtain ⟨n, hn⟩ : ∃ n, last.toNat - first.toNat = n := ⟨_, rfl⟩
  induction n using Nat.strongRecOn generalizing first with
  | ind n ih =>
    have hpos := toNat_pos_of_ne_zero hs
    have hle' := UInt64.le_iff_toNat_le.1 hle
    have hbin := toNat_binLast hs first last
    obtain ⟨binLast, hdef⟩ : ∃ binLast, min (saturatingAdd first (size - 1)) last = binLast := ⟨_, rfl⟩
    rw [hdef] at hbin
    by_cases heq : binLast = last
    · subst heq
      refine ⟨[⟨first, binLast⟩], .ends hle (by omega), fun turns => ?_⟩
      cases turns with
      | zero => rfl
      | succ turns => simp [binsFrom, hdef]
    · obtain ⟨hlt, hnext⟩ := toNat_next (by omega) heq
      have hrest : binLast + 1 ≤ last := UInt64.le_iff_toNat_le.2 (by omega)
      obtain ⟨bins, htiles, hloop⟩ := ih _ (by omega) hrest rfl
      refine ⟨⟨first, binLast⟩ :: bins, ?_, fun turns => ?_⟩
      · exact .full (UInt64.le_iff_toNat_le.2 (by omega)) (UInt64.lt_iff_toNat_lt.2 hlt) (by omega) htiles
      · cases turns with
        | zero => rfl
        | succ turns => simp [binsFrom, hdef, heq, hloop]

/-! ## Room -/

variable {first last size : UInt64}

/-- A list can hold all bins of a range. -/
def RoomForBins (first last size : UInt64) : Prop :=
  (last.toNat + 1 - first.toNat) ⌈/⌉ size.toNat * binBytes ≤ maxBytes

/-- The room for bins is their number, reduced to 64 bits. -/
theorem toNat_binCapacity (hle : first ≤ last) : (binCapacity first last size).toNat =
    ((last.toNat - first.toNat) / size.toNat + 1) % UInt64.size := by
  rw [binCapacity, UInt64.toNat_add, UInt64.toNat_div, toNat_span hle]
  rfl

/-- **Room is refused exactly where a list cannot hold all bins**: a number of bins that leaves the 64-bit
numbers is far too large. -/
theorem noCapacity_iff (hle : first ≤ last) (hs : size ≠ 0) :
    (binCapacity first last size = 0 ∨
      listFits (binCapacity first last size).toNat binBytes = false) ↔ ¬ RoomForBins first last size := by
  have hzero : binCapacity first last size = 0 ↔ (binCapacity first last size).toNat = 0 :=
    UInt64.toNat_inj.symm
  have hcapacity : (binCapacity first last size).toNat = _ := toNat_binCapacity hle
  have hlast := last.toNat_lt
  have hcount : (last.toNat - first.toNat) / size.toNat ≤ 18446744073709551615 :=
    (Nat.div_le_self _ _).trans (by omega)
  rw [hzero, RoomForBins, ceilDiv_eq_div_add_one hle hs, listFits, decide_eq_false_iff_not, hcapacity]
  generalize (last.toNat - first.toNat) / size.toNat = count at hcount
  rw [UInt64.size, binBytes, maxBytes]
  constructor <;> omega

/-- **The bins of a range** are those of the loop, which is allowed as many turns as there are bins. -/
theorem splitRange_eq_ok (hle : first ≤ last) (hs : size ≠ 0) (hroom : RoomForBins first last size) :
    ∃ bins, splitRange first last size = .ok bins ∧ Tiles size.toNat last first bins ∧
      ∀ turns, binsFrom last size turns first = bins.take turns := by
  obtain ⟨bins, htiles, hloop⟩ := exists_tiles hle hs
  have hcapacity : ¬ (binCapacity first last size = 0 ∨
      listFits (binCapacity first last size).toNat binBytes = false) :=
    fun h => (noCapacity_iff hle hs).1 h hroom
  have hturns : (binCapacity first last size).toNat = bins.length := by
    rw [toNat_binCapacity hle, htiles.length_eq_div hle hs]
    refine Nat.mod_eq_of_lt ?_
    rw [RoomForBins, ceilDiv_eq_div_add_one hle hs, binBytes, maxBytes] at hroom
    change _ < 18446744073709551616
    omega
  refine ⟨bins, ?_, htiles, hloop⟩
  simp only [splitRange, if_neg (UInt64.not_lt.2 hle), if_neg hs, if_neg hcapacity]
  rw [hturns, hloop, List.take_length]

theorem splitRange_eq_breakDown :
    splitRange first last size = .error .breakDown ↔
      first ≤ last ∧ size ≠ 0 ∧ ¬ RoomForBins first last size := by
  by_cases hlt : last < first
  · simp [splitRange, hlt]
  · have hle : first ≤ last := UInt64.not_lt.1 hlt
    by_cases hs : size = 0
    · simp [splitRange, hlt, hs]
    · by_cases hroom : RoomForBins first last size
      · obtain ⟨bins, hok, -⟩ := splitRange_eq_ok hle hs hroom
        simp [hok, hroom]
      · have hnone := (noCapacity_iff hle hs).2 hroom
        simp only [splitRange, if_neg hlt, if_neg hs, if_pos hnone]
        simp [hle, hs, hroom]

end SlotIndex
