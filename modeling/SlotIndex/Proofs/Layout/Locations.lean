import SlotIndex.Layout
import SlotIndex.Proofs.Slot.Declared

/-!
# Declared locations

Where a layout declares something, and what. A state variable is declared at the slot whose number is
written, a mapping at the slot of each of its keys, and a mapping of structs at the slot of each member
behind each of its keys. The labels of a location pair the names of the levels of its mapping with the
words of the key as they are written.

* `Location`, `MappingDecl.Declares`, `Layout.Declares`.
* `MappingDecl.Reads`: the words that a key writes, one for each level of a mapping.
* `MappingDecl.Sound`: what a mapping declares can be decoded, whatever its keys are.
* **`Layout.mem_declarations`**: the declarations of a layout are its locations with their metadata.
* **`Layout.exists_declarations_iff`**: when a layout has declarations at all.
-/

namespace SlotIndex

/-- A location and what is declared about it. -/
structure Location where
  key : Word
  name : String
  /-- The names of mapping levels with the words of the key, as they are written. -/
  labels : List (String × String)
  type : ValueType
  fields : List Field

/-- The location with its metadata. -/
def Location.declaration (loc : Location) : Except StorageError Declaration := do
  let metadata ← Metadata.ofSlot loc.name (Table.ofList loc.labels) loc.type loc.fields
  return (loc.key, metadata)

theorem Location.declaration_eq_ok {loc : Location} {e : Declaration} :
    loc.declaration = .ok e ↔ loc.key = e.1 ∧
      (loc.type = .packedSlot ∨ loc.fields = []) ∧ e.2.name = loc.name ∧
      e.2.labels = Table.ofList loc.labels ∧ e.2.shape = Shape.declared loc.type loc.fields := by
  obtain ⟨key, m⟩ := e
  rw [← Metadata.ofSlot_eq_ok]
  simp only [Location.declaration, bind_eq_ok, pure_eq_ok, Prod.mk.injEq]
  constructor
  · rintro ⟨m, hm, hkey, rfl⟩
    exact ⟨hkey, hm⟩
  · rintro ⟨hkey, hm⟩
    exact ⟨m, hm, hkey, rfl⟩

theorem Location.exists_declaration_iff {loc : Location} :
    (∃ e, loc.declaration = .ok e) ↔ Declarable loc.type loc.fields := by
  rw [← @Metadata.exists_ofSlot_iff loc.name (Table.ofList loc.labels)]
  simp only [Location.declaration, bind_eq_ok, pure_eq_ok]
  constructor
  · rintro ⟨-, m, hm, -⟩
    exact ⟨m, hm⟩
  · rintro ⟨m, hm⟩
    exact ⟨_, m, hm, rfl⟩

theorem wordOf_eq_ok {name written : String} {w : Word} :
    wordOf name written = .ok w ↔ Word.parse written = .ok w := by
  rw [wordOf, mapError_eq_ok]

/-! ## State variables -/

namespace SlotDecl

variable {slot : SlotDecl}

/-- What a state variable declares at a slot. -/
def location (slot : SlotDecl) (key : Word) : Location :=
  ⟨key, slot.name, [], slot.type, slot.packed⟩

theorem declaration_eq_ok {e : Declaration} :
    slot.declaration = .ok e ↔
      ∃ key, Word.parse slot.key = .ok key ∧ (slot.location key).declaration = .ok e := by
  have hsteps : slot.declaration =
      wordOf slot.name slot.key >>= fun key => (slot.location key).declaration := rfl
  rw [hsteps, bind_eq_ok]
  simp only [wordOf_eq_ok]

theorem exists_declaration_iff :
    (∃ e, slot.declaration = .ok e) ↔
      (∃ key, Word.parse slot.key = .ok key) ∧ Declarable slot.type slot.packed := by
  simp only [declaration_eq_ok]
  constructor
  · rintro ⟨e, key, hkey, he⟩
    exact ⟨⟨key, hkey⟩, Location.exists_declaration_iff.1 ⟨e, he⟩⟩
  · rintro ⟨⟨key, hkey⟩, hdecl⟩
    obtain ⟨e, he⟩ := (@Location.exists_declaration_iff (slot.location key)).2 hdecl
    exact ⟨e, key, hkey, he⟩

end SlotDecl

/-! ## Mappings -/

namespace MappingDecl

variable {mapping : MappingDecl} {key : MappingKey}

/-- A key writes one word for each level of a mapping. -/
structure Reads (mapping : MappingDecl) (key : MappingKey) (words : List Word) : Prop where
  length_words : key.words.length = mapping.keyNames.length
  parse_words : List.Forall₂ (fun written word => Word.parse written = .ok word) key.words words

theorem parseKey_eq_ok {words : List Word} :
    mapping.parseKey key = .ok words ↔ mapping.Reads key words := by
  unfold parseKey
  by_cases hlength : key.words.length = mapping.keyNames.length
  · simp only [if_pos hlength, mapError_eq_ok, mapM_eq_ok]
    exact ⟨fun h => ⟨hlength, h⟩, Reads.parse_words⟩
  · simp only [if_neg hlength, reduceCtorEq, false_iff]
    exact fun h => hlength h.length_words

/-- What a mapping declares for a key. -/
inductive Declares (mapping : MappingDecl) (key : MappingKey) : Location → Prop
  /-- A mapping of plain values. -/
  | entry {words : List Word} {index : Word} (hwords : mapping.Reads key words)
      (hindex : Word.parse mapping.index = .ok index) (hmembers : mapping.members = []) :
    Declares mapping key ⟨nestedSlot words index, mapping.name, mapping.keyNames.zip key.words,
      mapping.type, mapping.packed⟩
  /-- A mapping of structs. -/
  | member {words : List Word} {index : Word} {member : MemberDecl}
      (hwords : mapping.Reads key words) (hindex : Word.parse mapping.index = .ok index)
      (hmember : member ∈ mapping.members) :
    Declares mapping key ⟨memberSlot (nestedSlot words index) member.offset, member.name,
      mapping.keyNames.zip key.words, member.type, member.packed⟩

/-- Everything that a mapping declares can be decoded. -/
def Sound (mapping : MappingDecl) : Prop :=
  if mapping.members = [] then Declarable mapping.type mapping.packed
  else ∀ member ∈ mapping.members, Declarable member.type member.packed

instance (mapping : MappingDecl) : Decidable mapping.Sound := by unfold Sound; infer_instance

/-- What a mapping declares at a slot. -/
def locationsAt (mapping : MappingDecl) (labels : List (String × String)) (base : Word) :
    List Location :=
  if mapping.members = [] then [⟨base, mapping.name, labels, mapping.type, mapping.packed⟩]
  else mapping.members.map fun member =>
    ⟨memberSlot base member.offset, member.name, labels, member.type, member.packed⟩

theorem declarationsAt_eq (labels : List (String × String)) (base : Word) :
    mapping.declarationsAt (Table.ofList labels) base =
      (mapping.locationsAt labels base).mapM Location.declaration := by
  unfold declarationsAt locationsAt
  by_cases hmembers : mapping.members = []
  · simp [hmembers, Location.declaration]
  · simp only [if_neg hmembers, List.mapM_map]
    rfl

theorem sound_iff (labels : List (String × String)) (base : Word) :
    mapping.Sound ↔ ∀ loc ∈ mapping.locationsAt labels base, Declarable loc.type loc.fields := by
  unfold Sound locationsAt
  split <;> simp

theorem declares_iff {loc : Location} :
    mapping.Declares key loc ↔ ∃ words index, mapping.Reads key words ∧
      Word.parse mapping.index = .ok index ∧
      loc ∈ mapping.locationsAt (mapping.keyNames.zip key.words) (nestedSlot words index) := by
  unfold locationsAt
  constructor
  · rintro (⟨hwords, hindex, hmembers⟩ | ⟨hwords, hindex, hmember⟩)
    · exact ⟨_, _, hwords, hindex, by simp [hmembers]⟩
    · refine ⟨_, _, hwords, hindex, ?_⟩
      rw [if_neg (List.ne_nil_of_mem hmember)]
      exact List.mem_map_of_mem hmember
  · rintro ⟨words, index, hwords, hindex, hloc⟩
    by_cases hmembers : mapping.members = []
    · rw [if_pos hmembers, List.mem_singleton] at hloc
      subst hloc
      exact .entry hwords hindex hmembers
    · rw [if_neg hmembers] at hloc
      obtain ⟨member, hmember, rfl⟩ := List.mem_map.1 hloc
      exact .member hwords hindex hmember

theorem Declares.declarable {loc : Location} (h : mapping.Declares key loc)
    (hsound : mapping.Sound) : Declarable loc.type loc.fields := by
  obtain ⟨words, index, -, -, hloc⟩ := declares_iff.1 h
  exact (sound_iff _ _).1 hsound loc hloc

theorem Declares.map_fst_labels {loc : Location} (h : mapping.Declares key loc) :
    loc.labels.map Prod.fst = mapping.keyNames := by
  cases h with
  | entry hwords | member hwords => exact List.map_fst_zip (Nat.le_of_eq hwords.length_words.symm)

theorem declarationsFor_eq_ok {index : Word} {found : List Declaration} :
    mapping.declarationsFor index key = .ok found ↔ ∃ words, mapping.Reads key words ∧
      (mapping.locationsAt (mapping.keyNames.zip key.words) (nestedSlot words index)).mapM
        Location.declaration = .ok found := by
  simp only [declarationsFor, bind_eq_ok, mapError_eq_ok, parseKey_eq_ok, labels, declarationsAt_eq]

theorem exists_declarationsFor_iff {index : Word} :
    (∃ found, mapping.declarationsFor index key = .ok found) ↔
      (∃ words, mapping.Reads key words) ∧ mapping.Sound := by
  simp only [declarationsFor_eq_ok]
  constructor
  · rintro ⟨found, words, hwords, hfound⟩
    have hall := exists_mapM_eq_ok.1 ⟨found, hfound⟩
    simp only [Location.exists_declaration_iff] at hall
    exact ⟨⟨words, hwords⟩, (sound_iff _ _).2 hall⟩
  · rintro ⟨⟨words, hwords⟩, hsound⟩
    have hall := (sound_iff (mapping.keyNames.zip key.words) (nestedSlot words index)).1 hsound
    simp only [← Location.exists_declaration_iff] at hall
    obtain ⟨found, hfound⟩ := exists_mapM_eq_ok.2 hall
    exact ⟨found, words, hwords, hfound⟩

/-- The declarations of a mapping are the locations that it declares for the keys. -/
theorem mem_declarations {keys : List MappingKey} {found : List Declaration}
    (h : mapping.declarations keys = .ok found) {e : Declaration} :
    e ∈ found ↔ ∃ key ∈ keys, ∃ loc, mapping.Declares key loc ∧ loc.declaration = .ok e := by
  simp only [declarations, bind_eq_ok, pure_eq_ok, wordOf_eq_ok] at h
  obtain ⟨index, hindex, lists, hlists, rfl⟩ := h
  rw [List.mem_flatten]
  constructor
  · rintro ⟨list, hlist, he⟩
    obtain ⟨key, hkey, hfor⟩ := (mem_of_mapM_eq_ok hlists).1 hlist
    obtain ⟨words, hwords, hall⟩ := declarationsFor_eq_ok.1 hfor
    obtain ⟨loc, hloc, hdecl⟩ := (mem_of_mapM_eq_ok hall).1 he
    exact ⟨key, hkey, loc, declares_iff.2 ⟨words, index, hwords, hindex, hloc⟩, hdecl⟩
  · rintro ⟨key, hkey, loc, hloc, hdecl⟩
    obtain ⟨words, index', hwords, hindex', hloc⟩ := declares_iff.1 hloc
    cases hindex.symm.trans hindex'
    obtain ⟨list, hlist⟩ := exists_mapM_eq_ok.1 ⟨_, hlists⟩ key hkey
    obtain ⟨words', hwords', hall⟩ := declarationsFor_eq_ok.1 hlist
    -- a key writes the same words whenever it is read
    cases (parseKey_eq_ok.2 hwords).symm.trans (parseKey_eq_ok.2 hwords')
    exact ⟨list, (mem_of_mapM_eq_ok hlists).2 ⟨key, hkey, hlist⟩,
      (mem_of_mapM_eq_ok hall).2 ⟨loc, hloc, hdecl⟩⟩

/-- **When a mapping has declarations for keys**: its index is a word, every key can be read, and what
it declares can be decoded, which is seen only if there is a key. -/
theorem exists_declarations_iff {keys : List MappingKey} :
    (∃ found, mapping.declarations keys = .ok found) ↔
      (∃ index, Word.parse mapping.index = .ok index) ∧
      ∀ key ∈ keys, (∃ words, mapping.Reads key words) ∧ mapping.Sound := by
  simp only [declarations, bind_eq_ok, pure_eq_ok, wordOf_eq_ok]
  constructor
  · rintro ⟨-, index, hindex, lists, hlists, -⟩
    refine ⟨⟨index, hindex⟩, fun key hkey => ?_⟩
    exact exists_declarationsFor_iff.1 (exists_mapM_eq_ok.1 ⟨lists, hlists⟩ key hkey)
  · rintro ⟨⟨index, hindex⟩, hkeys⟩
    obtain ⟨lists, hlists⟩ := exists_mapM_eq_ok.2 fun key hkey =>
      (@exists_declarationsFor_iff mapping key index).2 (hkeys key hkey)
    exact ⟨_, index, hindex, lists, hlists, rfl⟩

end MappingDecl

/-! ## Layouts -/

namespace Layout

variable {layout : Layout}

/-- What a layout declares by itself. -/
inductive Declares (layout : Layout) : Location → Prop
  | slot {slot : SlotDecl} {key : Word} (hslot : slot ∈ layout.slots)
      (hkey : Word.parse slot.key = .ok key) : Declares layout (slot.location key)
  | mapping {mapping : MappingDecl} {key : MappingKey} {loc : Location}
      (hmapping : mapping ∈ layout.mappings) (hkey : key ∈ mapping.keys)
      (hloc : mapping.Declares key loc) : Declares layout loc

/-- **The declarations of a layout** are the locations that it declares, with their metadata. -/
theorem mem_declarations {found : List Declaration} (h : layout.declarations = .ok found)
    {e : Declaration} : e ∈ found ↔ ∃ loc, layout.Declares loc ∧ loc.declaration = .ok e := by
  simp only [declarations, bind_eq_ok, pure_eq_ok] at h
  obtain ⟨slots, hslots, lists, hlists, rfl⟩ := h
  rw [List.mem_append, mem_of_mapM_eq_ok hslots, List.mem_flatten]
  constructor
  · rintro (⟨slot, hslot, he⟩ | ⟨list, hlist, he⟩)
    · obtain ⟨key, hkey, hdecl⟩ := SlotDecl.declaration_eq_ok.1 he
      exact ⟨_, .slot hslot hkey, hdecl⟩
    · obtain ⟨mapping, hmapping, hfound⟩ := (mem_of_mapM_eq_ok hlists).1 hlist
      obtain ⟨key, hkey, loc, hloc, hdecl⟩ := (MappingDecl.mem_declarations hfound).1 he
      exact ⟨loc, .mapping hmapping hkey hloc, hdecl⟩
  · rintro ⟨loc, hloc, hdecl⟩
    cases hloc with
    | slot hslot hkey => exact .inl ⟨_, hslot, SlotDecl.declaration_eq_ok.2 ⟨_, hkey, hdecl⟩⟩
    | mapping hmapping hkey hloc =>
      obtain ⟨list, hlist⟩ := exists_mapM_eq_ok.1 ⟨_, hlists⟩ _ hmapping
      exact .inr ⟨list, (mem_of_mapM_eq_ok hlists).2 ⟨_, hmapping, hlist⟩,
        (MappingDecl.mem_declarations hlist).2 ⟨_, hkey, _, hloc, hdecl⟩⟩

/-- **When a layout has declarations**: every state variable stands at a slot and can be decoded, every
mapping has an index, and every mapping with keys has keys that can be read and can be decoded. -/
theorem exists_declarations_iff :
    (∃ found, layout.declarations = .ok found) ↔
      (∀ slot ∈ layout.slots,
        (∃ key, Word.parse slot.key = .ok key) ∧ Declarable slot.type slot.packed) ∧
      ∀ mapping ∈ layout.mappings, (∃ index, Word.parse mapping.index = .ok index) ∧
        ∀ key ∈ mapping.keys, (∃ words, mapping.Reads key words) ∧ mapping.Sound := by
  simp only [declarations, bind_eq_ok, pure_eq_ok, ← SlotDecl.exists_declaration_iff,
    ← MappingDecl.exists_declarations_iff, ← exists_mapM_eq_ok]
  constructor
  · rintro ⟨-, slots, hslots, lists, hlists, -⟩
    exact ⟨⟨slots, hslots⟩, lists, hlists⟩
  · rintro ⟨⟨slots, hslots⟩, lists, hlists⟩
    exact ⟨_, slots, hslots, lists, hlists, rfl⟩

theorem Declares.declarable {found : List Declaration} (h : layout.declarations = .ok found)
    {loc : Location} (hloc : layout.Declares loc) : Declarable loc.type loc.fields := by
  obtain ⟨hslots, hmappings⟩ := exists_declarations_iff.1 ⟨found, h⟩
  cases hloc with
  | slot hslot hkey => exact (hslots _ hslot).2
  | mapping hmapping hkey hloc => exact hloc.declarable ((hmappings _ hmapping).2 _ hkey).2

theorem Declares.nodup_labels (hnames : ∀ mapping ∈ layout.mappings, mapping.keyNames.Nodup)
    {loc : Location} (hloc : layout.Declares loc) : (loc.labels.map Prod.fst).Nodup := by
  cases hloc with
  | slot hslot hkey => exact List.nodup_nil
  | mapping hmapping hkey hloc =>
    rw [hloc.map_fst_labels]
    exact hnames _ hmapping

end Layout

end SlotIndex
