import Mathlib.Data.List.Sort
import SlotIndex.Proofs.Slot.Declared

/-!
# Metadata as it is constructed

A packed slot is made of the types and the names of its fields by position, from a list of fields or not.
It is accepted exactly if the two maps describe a slot that can be decoded, and nothing of them is lost.

* `PackedLayout`: maps of types and names by position that describe a packed slot.
* `mem_byPosition`, `byPosition_eq_iff`: the entries of a map in the order of their positions.
* `Lists`, `exists_lists_iff`: maps that hold the parts of fields in their order.
* `exists_packed?_iff`: which maps are accepted.
* `Metadata.fieldTypes`, `Metadata.fieldNames`: the maps that metadata holds.
* **`accepted_iff_decodable`**: what the constructors accept, and what all metadata satisfies.
-/

namespace SlotIndex

/-- The bytes that values of types take together. -/
def widthSum : List ValueType → Nat
  | [] => 0
  | t :: rest => t.width + widthSum rest

theorem widthSum_perm {ts ts' : List ValueType} (h : ts.Perm ts') : widthSum ts = widthSum ts' := by
  induction h with
  | nil => rfl
  | cons t _ ih => rw [widthSum, widthSum, ih]
  | swap t t' ts => exact Nat.add_left_comm ..
  | trans _ _ ih ih' => exact ih.trans ih'

/-- The types and the names of fields by position describe a packed slot: there are some, both have the
same positions and these have no gaps, no field is a packed slot and together they fit into a slot. -/
structure PackedLayout (types : Table Nat ValueType) (names : Table Nat String) : Prop where
  nonempty : types.keys ≠ []
  samePositions : ∀ p, p ∈ types.keys ↔ p ∈ names.keys
  noGaps : ∀ p, p ∈ types.keys ↔ p < types.size
  notNested : ∀ t ∈ types.values, t ≠ .packedSlot
  fits : widthSum types.values ≤ 32

namespace Metadata

/-! ## Maps by position -/

section Maps

variable {α : Type} {s t : Table Nat α}

theorem perm_byPosition (t : Table Nat α) : (byPosition t).Perm t.entries := List.mergeSort_perm _ _

theorem mem_byPosition {e : Nat × α} : e ∈ byPosition t ↔ t.get? e.1 = some e.2 := by
  rw [(perm_byPosition t).mem_iff]
  constructor
  · exact Table.get?_of_mem
  · intro h
    obtain ⟨e', hfind, hvalue⟩ := Option.map_eq_some_iff.1 h
    have hkey : e'.1 = e.1 := by simpa using List.find?_some hfind
    have heq : e' = e := Prod.ext hkey hvalue
    rw [← heq]
    exact List.mem_of_find?_eq_some hfind

/-- No position is there twice, so the order is strict. -/
theorem ascending_byPosition (t : Table Nat α) : (byPosition t).Pairwise fun a b => a.1 < b.1 := by
  have hsorted : (byPosition t).Pairwise fun a b => decide (a.1 ≤ b.1) = true := by
    refine List.pairwise_mergeSort ?_ ?_ t.entries
    · intro a b c hab hbc
      rw [decide_eq_true_eq] at hab hbc ⊢
      exact Nat.le_trans hab hbc
    · intro a b
      rw [Bool.or_eq_true, decide_eq_true_eq, decide_eq_true_eq]
      exact Nat.le_total a.1 b.1
  have hnodup : ((byPosition t).map Prod.fst).Nodup :=
    ((perm_byPosition t).map Prod.fst).nodup_iff.2 t.nodup_keys
  refine hsorted.imp₂ ?_ (List.pairwise_map.1 hnodup)
  intro a b hle hne
  exact Nat.lt_of_le_of_ne (of_decide_eq_true hle) hne

/-- Maps have the same entries in order exactly if they hold the same under each position. -/
theorem byPosition_eq_iff : byPosition s = byPosition t ↔ ∀ p, s.get? p = t.get? p := by
  constructor
  · intro h p
    refine Option.ext fun a => ?_
    rw [← mem_byPosition (e := (p, a)), ← mem_byPosition (e := (p, a)), h]
  · intro h
    refine List.Perm.eq_of_pairwise ?_ (ascending_byPosition s) (ascending_byPosition t) ?_
    · intro a b _ _ hab hba
      exact absurd (Nat.lt_trans hab hba) (Nat.lt_irrefl _)
    · have hnodup {t : Table Nat α} : (byPosition t).Nodup :=
        (ascending_byPosition t).imp fun hlt heq => absurd (heq ▸ hlt) (Nat.lt_irrefl _)
      refine (List.perm_ext_iff_of_nodup hnodup hnodup).2 fun e => ?_
      rw [mem_byPosition, mem_byPosition, h]

theorem get?_positions (as : List α) (p : Nat) : (positions as).get? p = as[p]? := by
  refine Option.ext fun a => ?_
  rw [← mem_byPosition (e := (p, a)), byPosition_positions, List.mem_map]
  constructor
  · rintro ⟨e, he, heq⟩
    obtain ⟨rfl, rfl⟩ := Prod.mk.inj heq
    simpa using List.mem_zipIdx_iff_getElem?.1 he
  · intro h
    exact ⟨(a, p), List.mem_zipIdx_iff_getElem?.2 h, rfl⟩

theorem mem_map_fst_byPosition {p : Nat} : p ∈ (byPosition t).map Prod.fst ↔ p ∈ t.keys :=
  ((perm_byPosition t).map Prod.fst).mem_iff

/-- A map that holds a list has as many entries. -/
theorem size_of_list {as : List α} (h : ∀ p, t.get? p = as[p]?) : t.size = as.length := by
  have hentries : byPosition t = byPosition (positions as) := by
    rw [byPosition_eq_iff]
    intro p
    rw [h, get?_positions]
  calc t.size = (byPosition t).length := (perm_byPosition t).length_eq.symm
    _ = as.length := by rw [hentries, byPosition_positions, List.length_map, List.length_zipIdx]

/-- A map whose positions have no gaps holds a list. -/
theorem exists_list {n : Nat} (h : ∀ p, p ∈ t.keys ↔ p < n) :
    ∃ as : List α, ∀ p, t.get? p = as[p]? := by
  have hrange : (byPosition t).map Prod.fst = List.range n := by
    refine List.Pairwise.eq_of_mem_iff (List.pairwise_map.2 (ascending_byPosition t))
      List.pairwise_lt_range fun p => ?_
    rw [mem_map_fst_byPosition, h, List.mem_range]
  refine ⟨(byPosition t).map Prod.snd, fun p => ?_⟩
  have hat := congrArg (fun ps : List Nat => ps[p]?) hrange
  cases hp : (byPosition t)[p]? with
  | some e =>
    simp only [List.getElem?_map, hp, Option.map_some] at hat
    obtain ⟨hlt, heq⟩ := List.getElem?_eq_some_iff.1 hat.symm
    rw [List.getElem_range] at heq
    have he := mem_byPosition.1 (List.mem_of_getElem? hp)
    rw [← heq] at he
    rw [he, List.getElem?_map, hp, Option.map_some]
  | none =>
    simp only [List.getElem?_map, hp, Option.map_none] at hat
    have hkey : p ∉ t.keys := by
      rw [h, Nat.not_lt]
      simpa using List.getElem?_eq_none_iff.1 hat.symm
    rw [← Table.isSome_get?, Option.not_isSome_iff_eq_none] at hkey
    rw [hkey, List.getElem?_map, hp, Option.map_none]

end Maps

/-! ## Fields by position -/

section Packed

variable {name : String} {labels : Labels} {types : Table Nat ValueType} {names : Table Nat String}
  {fields : List Field} {type : ValueType} {m : Metadata}

/-- The maps hold the types and the names of fields in their order. -/
def Lists (types : Table Nat ValueType) (names : Table Nat String) (fields : List Field) : Prop :=
  (∀ p, types.get? p = fields[p]?.map Field.type) ∧ ∀ p, names.get? p = fields[p]?.map Field.name

theorem lists_positions (fields : List Field) :
    Lists (positions (fields.map Field.type)) (positions (fields.map Field.name)) fields := by
  constructor
  all_goals
    intro p
    rw [get?_positions, List.getElem?_map]

/-- Maps that hold fields in their order have the same positions, without gaps. -/
theorem exists_lists_iff : (∃ fields, Lists types names fields) ↔
    (∀ p, p ∈ types.keys ↔ p ∈ names.keys) ∧ ∀ p, p ∈ types.keys ↔ p < types.size := by
  constructor
  · rintro ⟨fields, htypes, hnames⟩
    have hmem : ∀ p, p ∈ types.keys ↔ p < fields.length := by
      intro p
      rw [← Table.isSome_get?, htypes, Option.isSome_map]
      simp
    have hsize : types.size = fields.length := by
      have hlist : ∀ p, types.get? p = (fields.map Field.type)[p]? := by
        intro p
        rw [htypes, List.getElem?_map]
      rw [size_of_list hlist, List.length_map]
    refine ⟨fun p => ?_, fun p => ?_⟩
    · rw [hmem, ← Table.isSome_get?, hnames, Option.isSome_map]
      simp
    · rw [hmem, hsize]
  · rintro ⟨hsame, hnogaps⟩
    obtain ⟨ts, hts⟩ := exists_list hnogaps
    obtain ⟨ns, hns⟩ := exists_list fun p => (hsame p).symm.trans (hnogaps p)
    let fields := List.zipWith (fun n t => (⟨n, t⟩ : Field)) ns ts
    have hfields : ∀ p : Nat,
        fields[p]?.map Field.type = ts[p]? ∧ fields[p]?.map Field.name = ns[p]? := by
      intro p
      have hsome : ts[p]?.isSome = true ↔ ns[p]?.isSome = true := by
        rw [← hts, ← hns, Table.isSome_get?, Table.isSome_get?]
        exact hsame p
      rw [List.getElem?_zipWith]
      cases ht : ts[p]? <;> cases hn : ns[p]? <;> simp [ht, hn] at hsome ⊢
    exact ⟨fields, fun p => (hts p).trans (hfields p).1.symm, fun p => (hns p).trans (hfields p).2.symm⟩

/-- Fields that maps hold in their order are the fields of the slot. -/
theorem packed?_of_lists (h : Lists types names fields) :
    packed? name labels types names = ofFields name labels fields := by
  have htypes : byPosition types = byPosition (positions (fields.map Field.type)) := by
    rw [byPosition_eq_iff]
    intro p
    rw [h.1, (lists_positions fields).1]
  have hnames : byPosition names = byPosition (positions (fields.map Field.name)) := by
    rw [byPosition_eq_iff]
    intro p
    rw [h.2, (lists_positions fields).2]
  rw [← packed?_positions]
  unfold packed?
  rw [htypes, hnames]

/-- The types that a map holds are those of the fields, in some order. -/
theorem Lists.values_perm (h : Lists types names fields) :
    types.values.Perm (fields.map Field.type) := by
  have hentries : byPosition types = byPosition (positions (fields.map Field.type)) := by
    rw [byPosition_eq_iff]
    intro p
    rw [h.1, (lists_positions fields).1]
  have hvalues : (byPosition types).map Prod.snd = fields.map Field.type := by
    rw [hentries, byPosition_positions, List.map_map]
    exact List.zipIdx_map_fst 0 _
  rw [← hvalues]
  exact ((perm_byPosition types).map Prod.snd).symm

theorem widthSum_map_type (fields : List Field) :
    widthSum (fields.map Field.type) = totalWidth fields := by
  induction fields with
  | nil => rfl
  | cons f fields ih => rw [List.map_cons, widthSum, ih, totalWidth]

/-- Maps that hold fields describe a packed slot exactly if the fields can be decoded. -/
theorem Lists.packedLayout_iff (h : Lists types names fields) :
    PackedLayout types names ↔ (Shape.packed fields).Valid := by
  obtain ⟨hsame, hnogaps⟩ := exists_lists_iff.1 ⟨fields, h⟩
  have hvalues := h.values_perm
  have hwidth : widthSum types.values = totalWidth fields := by
    rw [widthSum_perm hvalues, widthSum_map_type]
  have hnotNested : (∀ t ∈ types.values, t ≠ .packedSlot) ↔ ∀ f ∈ fields, f.type ≠ .packedSlot := by
    simp only [hvalues.mem_iff, List.forall_mem_map]
  have hnonempty : types.keys ≠ [] ↔ fields ≠ [] := by
    have hlength : types.keys.length = fields.length := by
      simpa [Table.keys, Table.values] using hvalues.length_eq
    rw [← List.length_pos_iff, ← List.length_pos_iff, hlength]
  constructor
  · rintro ⟨hne, -, -, hflat, hfits⟩
    exact ⟨hnonempty.1 hne, hnotNested.1 hflat, hwidth ▸ hfits⟩
  · rintro ⟨hne, hflat, hfits⟩
    exact ⟨hnonempty.2 hne, hsame, hnogaps, hnotNested.2 hflat, hwidth ▸ hfits⟩

theorem exists_ofFields_iff :
    (∃ m, ofFields name labels fields = .ok m) ↔ (Shape.packed fields).Valid := by
  constructor
  · rintro ⟨m, hm⟩
    exact (ofFields_eq_ok.1 hm).2.2 ▸ m.valid
  · intro hvalid
    exact ⟨⟨name, labels, .packed fields, hvalid⟩, ofFields_eq_ok.2 ⟨rfl, rfl, rfl⟩⟩

/-- Maps that are accepted hold fields in their order. -/
theorem exists_lists_of_packed? (h : packed? name labels types names = .ok m) :
    ∃ fields, Lists types names fields := by
  unfold packed? at h
  simp only at h
  split at h
  · contradiction
  split at h
  · contradiction
  next hsame =>
  split at h
  · contradiction
  next hnogaps =>
  rw [ne_eq, not_not] at hsame hnogaps
  refine exists_lists_iff.2 ⟨fun p => ?_, fun p => ?_⟩
  · rw [← mem_map_fst_byPosition, hsame, mem_map_fst_byPosition]
  · rw [← mem_map_fst_byPosition, hnogaps, List.mem_range, (perm_byPosition types).length_eq]
    rfl

/-- **Which maps are accepted.** -/
theorem exists_packed?_iff :
    (∃ m, packed? name labels types names = .ok m) ↔ PackedLayout types names := by
  constructor
  · rintro ⟨m, hm⟩
    obtain ⟨fields, hfields⟩ := exists_lists_of_packed? hm
    rw [packed?_of_lists hfields] at hm
    exact hfields.packedLayout_iff.2 (exists_ofFields_iff.1 ⟨m, hm⟩)
  · intro h
    obtain ⟨fields, hfields⟩ := exists_lists_iff.2 ⟨h.samePositions, h.noGaps⟩
    rw [packed?_of_lists hfields, exists_ofFields_iff, ← hfields.packedLayout_iff]
    exact h

end Packed

/-! ## What metadata holds -/

/-- The types of the packed fields by position. -/
def fieldTypes (m : Metadata) : Table Nat ValueType := positions (m.fields.map Field.type)

/-- The names of the packed fields by position. -/
def fieldNames (m : Metadata) : Table Nat String := positions (m.fields.map Field.name)

theorem entries_positions_ne_nil {α : Type} {as : List α} : (positions as).entries ≠ [] ↔ as ≠ [] := by
  have hlength : (positions as).entries.length = as.length := size_of_list fun p => get?_positions as p
  rw [← List.length_pos_iff, ← List.length_pos_iff, hlength]

/-- Packed fields are there exactly in a packed slot. -/
theorem fields_ne_nil_iff (m : Metadata) : m.fields ≠ [] ↔ m.type = .packedSlot := by
  obtain ⟨name, labels, shape, hvalid⟩ := m
  cases shape with
  | plain type => exact iff_of_false (fun h => h rfl) hvalid
  | packed fields => exact iff_of_true hvalid.1 rfl

theorem shape_of_packedSlot {m : Metadata} (h : m.type = .packedSlot) : m.shape = .packed m.fields := by
  obtain ⟨name, labels, shape, hvalid⟩ := m
  cases shape with
  | plain type => exact absurd h hvalid
  | packed fields => rfl

theorem packed_eq_ok {name : String} {labels : Labels} {types : Table Nat ValueType}
    {names : Table Nat String} {m : Metadata} :
    packed name labels types names = .ok m ↔ packed? name labels types names = .ok m := by
  rw [packed, orError, mapError_eq_ok]

/-- Metadata holds the maps that it is made of. -/
theorem holds_of_packed {name : String} {labels : Labels} {types : Table Nat ValueType}
    {names : Table Nat String} {m : Metadata} (h : packed name labels types names = .ok m) :
    m.name = name ∧ m.labels = labels ∧ m.type = .packedSlot ∧
      ∀ p, m.fieldTypes.get? p = types.get? p ∧ m.fieldNames.get? p = names.get? p := by
  rw [packed_eq_ok] at h
  obtain ⟨fields, hfields⟩ := exists_lists_of_packed? h
  rw [packed?_of_lists hfields, ofFields_eq_ok] at h
  obtain ⟨hname, hlabels, hshape⟩ := h
  have htype : m.type = .packedSlot := by rw [type, hshape]
  have hheld : m.fields = fields := by rw [Metadata.fields, hshape]
  refine ⟨hname, hlabels, htype, fun p => ?_⟩
  rw [fieldTypes, fieldNames, hheld, get?_positions, get?_positions, List.getElem?_map,
    List.getElem?_map, hfields.1, hfields.2]
  exact ⟨rfl, rfl⟩

/-- Packed metadata is made of the maps that it holds. -/
theorem packed_of_packedSlot {m : Metadata} (h : m.type = .packedSlot) :
    packed m.name m.labels m.fieldTypes m.fieldNames = .ok m := by
  rw [packed_eq_ok, fieldTypes, fieldNames, packed?_positions, ofFields_eq_ok]
  exact ⟨rfl, rfl, shape_of_packedSlot h⟩

theorem plain_eq_ok {name : String} {labels : Labels} {type : ValueType} {m : Metadata} :
    plain name labels type = .ok m ↔
      type ≠ .packedSlot ∧ m.name = name ∧ m.labels = labels ∧ m.shape = .plain type := by
  rw [plain, orError, mapError_eq_ok, plain?]
  by_cases htype : type = .packedSlot
  · rw [dif_pos htype]
    exact iff_of_false (by simp) fun h => h.1 htype
  · rw [dif_neg htype]
    constructor
    · intro h
      cases h
      exact ⟨htype, rfl, rfl, rfl⟩
    · rintro ⟨-, rfl, rfl, hshape⟩
      obtain ⟨name, labels, shape, hvalid⟩ := m
      cases hshape
      rfl

/-- Plain metadata is made of its type. -/
theorem plain_of_ne {m : Metadata} (h : m.type ≠ .packedSlot) :
    plain m.name m.labels m.type = .ok m := by
  refine plain_eq_ok.2 ⟨h, rfl, rfl, ?_⟩
  obtain ⟨name, labels, shape, hvalid⟩ := m
  cases shape with
  | plain type => rfl
  | packed fields => exact absurd rfl h

section OfSlot

variable (name : String) (labels : Labels) {type : ValueType} {fields : List Field}

theorem ofSlot_packedSlot {types : Table Nat ValueType} {names : Table Nat String}
    (h : Lists types names fields) :
    ofSlot name labels .packedSlot fields = packed name labels types names := by
  rw [ofSlot, ofSlot?, if_pos rfl, packed?_positions, packed, packed?_of_lists h]

theorem ofSlot_nil (h : type ≠ .packedSlot) : ofSlot name labels type [] = plain name labels type := by
  rw [ofSlot, ofSlot?, if_neg h, if_pos rfl, plain]

theorem ofSlot_of_ne (h : type ≠ .packedSlot) (hfields : fields ≠ []) :
    ofSlot name labels type fields =
      .error (.invalidMetadata name MetadataFault.fieldsOfPlainSlot.message) := by
  rw [ofSlot, ofSlot?, if_neg h, if_neg hfields]
  rfl

end OfSlot

/-- **The constructors accept exactly what can be decoded.** Types and names by position are accepted
exactly if they describe a packed slot, and the metadata holds both maps. A slot with fields is made like a
packed slot from maps that hold the fields in their order, a slot of another type without fields like a
plain one, and a slot of another type with fields is an error. All metadata is made in one of these ways: it
has packed fields exactly if its type is that of a packed slot, and then its maps describe one. -/
theorem accepted_iff_decodable (name : String) (labels : Labels) :
    (∀ types names, ((∃ m, packed name labels types names = .ok m) ↔ PackedLayout types names) ∧
      ∀ m, packed name labels types names = .ok m →
        m.name = name ∧ m.labels = labels ∧ m.type = .packedSlot ∧
          ∀ p, m.fieldTypes.get? p = types.get? p ∧ m.fieldNames.get? p = names.get? p) ∧
    (∀ type, (∃ m, plain name labels type = .ok m) ↔ type ≠ .packedSlot) ∧
    (∀ fields types names, Lists types names fields →
      ofSlot name labels .packedSlot fields = packed name labels types names) ∧
    (∀ type, type ≠ .packedSlot → ofSlot name labels type [] = plain name labels type ∧
      ∀ fields, fields ≠ [] → ofSlot name labels type fields =
        .error (.invalidMetadata name MetadataFault.fieldsOfPlainSlot.message)) ∧
    ∀ m : Metadata, (m.fieldTypes.entries ≠ [] ↔ m.type = .packedSlot) ∧
      (m.fieldNames.entries ≠ [] ↔ m.type = .packedSlot) ∧
      (m.type = .packedSlot → PackedLayout m.fieldTypes m.fieldNames ∧
        packed m.name m.labels m.fieldTypes m.fieldNames = .ok m) ∧
      (m.type ≠ .packedSlot → plain m.name m.labels m.type = .ok m) := by
  refine ⟨fun types names => ⟨?_, fun m => holds_of_packed⟩, fun type => ?_,
    fun fields types names => ofSlot_packedSlot name labels,
    fun type htype => ⟨ofSlot_nil name labels htype, fun fields => ofSlot_of_ne name labels htype⟩,
    fun m => ⟨?_, ?_, fun htype => ⟨?_, packed_of_packedSlot htype⟩, plain_of_ne⟩⟩
  · simp only [packed_eq_ok, exists_packed?_iff]
  · constructor
    · rintro ⟨m, hm⟩
      exact (plain_eq_ok.1 hm).1
    · intro htype
      exact ⟨⟨name, labels, .plain type, htype⟩, plain_eq_ok.2 ⟨htype, rfl, rfl, rfl⟩⟩
  · rw [fieldTypes, entries_positions_ne_nil, ← fields_ne_nil_iff, ne_eq, ne_eq, List.map_eq_nil_iff]
  · rw [fieldNames, entries_positions_ne_nil, ← fields_ne_nil_iff, ne_eq, ne_eq, List.map_eq_nil_iff]
  · exact (lists_positions m.fields).packedLayout_iff.2 (shape_of_packedSlot htype ▸ m.valid)

/-- Types that are set from the last position to the first one. -/
def unorderedTypes : Table Nat ValueType := Table.ofList [(1, .address), (0, .uint48)]

/-- The names, in the same order. -/
def unorderedNames : Table Nat String := Table.ofList [(1, "owner"), (0, "since")]

theorem accepted_iff_decodable_unordered :
    PackedLayout unorderedTypes unorderedNames ∧
      ∃ m, ofSlot "lease" Table.empty .packedSlot [⟨"since", .uint48⟩, ⟨"owner", .address⟩] = .ok m ∧
        m.fieldNames.get? 1 = some "owner" ∧ PackedLayout m.fieldTypes m.fieldNames ∧
        ofSlot "lease" Table.empty .uint48 [⟨"since", .uint48⟩] =
          .error (.invalidMetadata "lease" MetadataFault.fieldsOfPlainSlot.message) := by
  obtain ⟨hpacked, -, hslot, hplain, hall⟩ := accepted_iff_decodable "lease" Table.empty
  have hlists : Lists unorderedTypes unorderedNames [⟨"since", .uint48⟩, ⟨"owner", .address⟩] := by
    constructor
    all_goals
      rintro (_ | _ | p)
      · rfl
      · rfl
      · rfl
  have hlayout : PackedLayout unorderedTypes unorderedNames :=
    hlists.packedLayout_iff.2 (by decide)
  obtain ⟨m, hm⟩ := (hpacked _ _).1.2 hlayout
  obtain ⟨-, -, htype, hheld⟩ := (hpacked _ _).2 m hm
  refine ⟨hlayout, m, (hslot _ _ _ hlists).trans hm, (hheld 1).2, ((hall m).2.2.1 htype).1, ?_⟩
  exact (hplain .uint48 (by decide)).2 _ (by decide)

end Metadata

end SlotIndex
