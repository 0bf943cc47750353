import SlotIndex.Proofs.Fallible
import SlotIndex.Slot.Metadata

/-!
# Metadata as it is declared

A declaration names a type and lists packed fields. It is metadata exactly if fields are listed for a
packed slot only and the shape that it declares can be decoded; the metadata then has that shape.

* `Shape.declared`, `Declarable`.
* `packed?_positions`: the detour over maps by position changes nothing.
* **`ofSlot_eq_ok`**, **`exists_ofSlot_iff`**: when a declaration is metadata, and which.
-/

namespace SlotIndex

/-- The shape that a type and a list of packed fields declare. -/
def Shape.declared (type : ValueType) (fields : List Field) : Shape :=
  if type = .packedSlot then .packed fields else .plain type

/-- Whether a type and a list of packed fields declare how a value is read. -/
def Declarable (type : ValueType) (fields : List Field) : Prop :=
  (type = .packedSlot ∨ fields = []) ∧ (Shape.declared type fields).Valid

instance (type : ValueType) (fields : List Field) : Decidable (Declarable type fields) :=
  inferInstanceAs (Decidable ((type = .packedSlot ∨ fields = []) ∧ (Shape.declared type fields).Valid))

namespace Metadata

variable {name : String} {labels : Labels} {type : ValueType} {fields : List Field}

/-! ## Positions -/

theorem map_fst_positions {α : Type} (as : List α) :
    (as.zipIdx.map fun e => (e.2, e.1)).map Prod.fst = List.range as.length := by
  rw [List.map_map, List.range_eq_range', ← List.zipIdx_map_snd 0 as]
  rfl

theorem byPosition_positions {α : Type} (as : List α) :
    byPosition (positions as) = as.zipIdx.map fun e => (e.2, e.1) := by
  have hentries : (positions as).entries = as.zipIdx.map fun e => (e.2, e.1) := by
    refine Table.entries_ofList ?_
    rw [map_fst_positions]
    exact List.nodup_range
  rw [byPosition, hentries]
  refine List.mergeSort_of_pairwise ?_
  have hsorted : ((as.zipIdx.map fun e => (e.2, e.1)).map Prod.fst).Pairwise (· ≤ ·) := by
    rw [map_fst_positions]
    exact List.pairwise_le_range
  exact (List.pairwise_map.1 hsorted).imp fun h => by simpa using h

theorem zipWith_positions (fields : List Field) :
    List.zipWith (fun t n => (⟨n.2, t.2⟩ : Field))
      ((fields.map Field.type).zipIdx.map fun e => (e.2, e.1))
      ((fields.map Field.name).zipIdx.map fun e => (e.2, e.1)) = fields := by
  rw [List.zipIdx_map, List.zipIdx_map, List.map_map, List.map_map, List.zipWith_map,
    List.zipWith_self]
  exact List.zipIdx_map_fst 0 fields

/-- Fields by position are the fields in their order. -/
theorem packed?_positions :
    packed? name labels (positions (fields.map Field.type)) (positions (fields.map Field.name)) =
      ofFields name labels fields := by
  unfold packed?
  simp only [byPosition_positions, map_fst_positions, List.length_map, List.length_zipIdx,
    zipWith_positions, ne_eq, not_true_eq_false, if_false]
  by_cases h : fields = []
  · subst h
    simp [ofFields]
  · rw [if_neg]
    simpa using h

/-! ## Declarations -/

theorem ofFields_eq_ok {m : Metadata} :
    ofFields name labels fields = .ok m ↔
      m.name = name ∧ m.labels = labels ∧ m.shape = .packed fields := by
  obtain ⟨name', labels', shape, hvalid⟩ := m
  unfold ofFields
  constructor
  · intro h
    split at h
    · contradiction
    split at h
    · split at h
      · cases h
        exact ⟨rfl, rfl, rfl⟩
      · contradiction
    · contradiction
  · rintro ⟨rfl, rfl, rfl⟩
    obtain ⟨hn, hp, hw⟩ := hvalid
    rw [dif_neg hn, dif_pos hp, dif_pos hw]

theorem ofSlot?_eq_ok {m : Metadata} :
    ofSlot? name labels type fields = .ok m ↔ (type = .packedSlot ∨ fields = []) ∧
      m.name = name ∧ m.labels = labels ∧ m.shape = Shape.declared type fields := by
  unfold ofSlot? Shape.declared
  by_cases htype : type = .packedSlot
  · rw [if_pos htype, if_pos htype, packed?_positions, ofFields_eq_ok]
    simp [htype]
  · rw [if_neg htype, if_neg htype]
    by_cases hfields : fields = []
    · rw [if_pos hfields, plain?, dif_neg htype]
      obtain ⟨name', labels', shape, hvalid⟩ := m
      constructor
      · intro h
        cases h
        exact ⟨.inr hfields, rfl, rfl, rfl⟩
      · rintro ⟨-, rfl, rfl, rfl⟩
        rfl
    · rw [if_neg hfields]
      simp [htype, hfields]

/-- **A declaration that is metadata**: it has the declared name, labels and shape. -/
theorem ofSlot_eq_ok {m : Metadata} :
    ofSlot name labels type fields = .ok m ↔ (type = .packedSlot ∨ fields = []) ∧
      m.name = name ∧ m.labels = labels ∧ m.shape = Shape.declared type fields := by
  rw [ofSlot, orError, mapError_eq_ok, ofSlot?_eq_ok]

/-- **When a declaration is metadata.** Its name and its labels do not matter. -/
theorem exists_ofSlot_iff :
    (∃ m, ofSlot name labels type fields = .ok m) ↔ Declarable type fields := by
  constructor
  · rintro ⟨m, hm⟩
    obtain ⟨hfields, -, -, hshape⟩ := ofSlot_eq_ok.1 hm
    exact ⟨hfields, hshape ▸ m.valid⟩
  · rintro ⟨hfields, hvalid⟩
    exact ⟨⟨name, labels, _, hvalid⟩, ofSlot_eq_ok.2 ⟨hfields, rfl, rfl, rfl⟩⟩

end Metadata

end SlotIndex
