import SlotIndex.Proofs.Layout.Locations

/-!
# The key table of a layout

The key table holds the locations that a layout enumerates, and nothing else. A layout enumerates the slots
of its state variables first and then, mapping after mapping and key after key, the slot of an entry or the
slots of the members of a struct. Of several declarations of one location the last one counts. A fault
anywhere leaves no table at all.

* `entrySlot`: the slot of an entry, by one hash for each word of its key.
* `Layout.locations`: what a layout enumerates, in its order.
* `Layout.Readable`, `Layout.Faulty`: whether all words that are written can be read, and all faults.
* `Layout.DeclaresLast`: the metadata that counts at a location.
* `Layout.declarations_eq_ok`: the declarations are the locations with their metadata, in the same order.
* **`Layout.table_exact`**: what the key table holds, and when there is none.
-/

namespace SlotIndex

/-! ## Slots -/

/-- A text writes a word. -/
def IsWord (written : String) : Prop := ∃ word, Word.parse written = .ok word

/-- The word that a text writes, and the word zero where it writes none. -/
def wordIn (written : String) : Word := (Word.parse written).toOption.getD default

theorem parse_eq_ok_iff {written : String} {word : Word} :
    Word.parse written = .ok word ↔ IsWord written ∧ wordIn written = word := by
  unfold IsWord wordIn
  cases Word.parse written <;> simp [Except.toOption]

/-- Words that are written are read one by one. -/
theorem forall₂_parse_iff {written : List String} {words : List Word} :
    List.Forall₂ (fun text word => Word.parse text = .ok word) written words ↔
      (∀ text ∈ written, IsWord text) ∧ written.map wordIn = words := by
  simp only [parse_eq_ok_iff, List.forall₂_and_left, ← List.forall₂_eq_eq_eq, List.forall₂_map_left_iff]

/-- The slot of an entry of the mapping at a slot, by the words of its key. The outermost word is hashed
together with the slot, the next one with the slot that comes of this, and so on. -/
def entrySlot (slot : Word) : List Word → Word
  | [] => slot
  | key :: keys => entrySlot (keccak256 (key.bytes ++ slot.bytes)) keys

theorem nestedSlot_eq (keys : List Word) (index : Word) : nestedSlot keys index = entrySlot index keys := by
  induction keys generalizing index with
  | nil => rfl
  | cons key keys ih =>
    rw [nestedSlot_cons, ih, mappingSlot]
    rfl

/-! ## Enumerated locations -/

/-- What a state variable declares. -/
def SlotDecl.place (slot : SlotDecl) : Location := slot.location (wordIn slot.key)

theorem SlotDecl.declaration_eq_ok_iff (slot : SlotDecl) (e : Declaration) :
    slot.declaration = .ok e ↔ IsWord slot.key ∧ slot.place.declaration = .ok e := by
  simp only [declaration_eq_ok, parse_eq_ok_iff, and_assoc, exists_and_left, exists_eq_left']
  rfl

namespace MappingDecl

/-- What a mapping declares for a key, in the order of its members. -/
def locationsFor (mapping : MappingDecl) (key : MappingKey) : List Location :=
  let base := entrySlot (wordIn mapping.index) (key.words.map wordIn)
  let labels := mapping.keyNames.zip key.words
  if mapping.members = [] then [⟨base, mapping.name, labels, mapping.type, mapping.packed⟩]
  else mapping.members.map fun member =>
    ⟨Word.ofNat (base.toNat + member.offset.toNat), member.name, labels, member.type, member.packed⟩

/-- A key has as many words as the mapping has levels, and all of them can be read. -/
def ReadableKey (mapping : MappingDecl) (key : MappingKey) : Prop :=
  key.words.length = mapping.keyNames.length ∧ ∀ word ∈ key.words, IsWord word

variable {mapping : MappingDecl} {key : MappingKey}

theorem locationsFor_eq : mapping.locationsFor key = mapping.locationsAt (mapping.keyNames.zip key.words)
    (nestedSlot (key.words.map wordIn) (wordIn mapping.index)) := by
  rw [nestedSlot_eq]
  rfl

theorem reads_iff {words : List Word} :
    mapping.Reads key words ↔ mapping.ReadableKey key ∧ key.words.map wordIn = words := by
  rw [ReadableKey, and_assoc, ← forall₂_parse_iff]
  exact ⟨fun h => ⟨h.length_words, h.parse_words⟩, fun h => ⟨h.1, h.2⟩⟩

theorem declarationsFor_eq_ok_iff (mapping : MappingDecl) (key : MappingKey) (found : List Declaration) :
    mapping.declarationsFor (wordIn mapping.index) key = .ok found ↔
      mapping.ReadableKey key ∧ (mapping.locationsFor key).mapM Location.declaration = .ok found := by
  simp only [declarationsFor_eq_ok, reads_iff, and_assoc, exists_and_left, exists_eq_left', locationsFor_eq]

theorem declarations_eq_ok (mapping : MappingDecl) (found : List Declaration) :
    mapping.declarations mapping.keys = .ok found ↔
      (IsWord mapping.index ∧ ∀ key ∈ mapping.keys, mapping.ReadableKey key) ∧
      (mapping.keys.flatMap mapping.locationsFor).mapM Location.declaration = .ok found := by
  rw [and_assoc, ← flatten_mapM_guarded mapping.declarationsFor_eq_ok_iff]
  simp only [declarations, bind_eq_ok, pure_eq_ok, wordOf_eq_ok, parse_eq_ok_iff, and_assoc,
    exists_and_left, exists_eq_left']

end MappingDecl

namespace Layout

variable {layout : Layout}

/-- Everything that a layout declares, in the order of declaration. -/
def locations (layout : Layout) : List Location :=
  layout.slots.map SlotDecl.place ++
    layout.mappings.flatMap fun mapping => mapping.keys.flatMap mapping.locationsFor

/-- All words that are written can be read. -/
structure Readable (layout : Layout) : Prop where
  slots : ∀ slot ∈ layout.slots, IsWord slot.key
  mappings : ∀ mapping ∈ layout.mappings,
    IsWord mapping.index ∧ ∀ key ∈ mapping.keys, mapping.ReadableKey key

/-- **The declarations of a layout in their order** are its locations with their metadata. -/
theorem declarations_eq_ok {found : List Declaration} : layout.declarations = .ok found ↔
    layout.Readable ∧ layout.locations.mapM Location.declaration = .ok found := by
  have hslots (found : List Declaration) : layout.slots.mapM SlotDecl.declaration = .ok found ↔
      (∀ slot ∈ layout.slots, IsWord slot.key) ∧
      (layout.slots.map SlotDecl.place).mapM Location.declaration = .ok found :=
    mapM_guarded SlotDecl.declaration_eq_ok_iff
  have hmappings (found : List Declaration) : (∃ lists,
        (layout.mappings.mapM fun mapping => mapping.declarations mapping.keys) = .ok lists ∧
        lists.flatten = found) ↔
      (∀ mapping ∈ layout.mappings,
        IsWord mapping.index ∧ ∀ key ∈ mapping.keys, mapping.ReadableKey key) ∧
      (layout.mappings.flatMap fun mapping => mapping.keys.flatMap mapping.locationsFor).mapM
        Location.declaration = .ok found :=
    flatten_mapM_guarded MappingDecl.declarations_eq_ok
  simp only [declarations, bind_eq_ok, pure_eq_ok, hslots, locations, mapM_append_eq_ok]
  constructor
  · rintro ⟨xs, ⟨hread, hxs⟩, lists, hlists, rfl⟩
    obtain ⟨hreads, hys⟩ := (hmappings _).1 ⟨lists, hlists, rfl⟩
    exact ⟨⟨hread, hreads⟩, xs, hxs, _, hys, rfl⟩
  · rintro ⟨⟨hread, hreads⟩, xs, hxs, ys, hys, rfl⟩
    obtain ⟨lists, hlists, rfl⟩ := (hmappings ys).2 ⟨hreads, hys⟩
    exact ⟨xs, ⟨hread, hxs⟩, lists, hlists, rfl⟩

/-! ## Faults -/

/-- What leaves a layout without a key table. -/
inductive Faulty (layout : Layout) : Prop where
  | slot {slot : SlotDecl} (hslot : slot ∈ layout.slots) (hbad : ¬ IsWord slot.key)
  | index {mapping : MappingDecl} (hmapping : mapping ∈ layout.mappings) (hbad : ¬ IsWord mapping.index)
  | wordCount {mapping : MappingDecl} {key : MappingKey} (hmapping : mapping ∈ layout.mappings)
      (hkey : key ∈ mapping.keys) (hbad : key.words.length ≠ mapping.keyNames.length)
  | word {mapping : MappingDecl} {key : MappingKey} {word : String} (hmapping : mapping ∈ layout.mappings)
      (hkey : key ∈ mapping.keys) (hword : word ∈ key.words) (hbad : ¬ IsWord word)
  | metadata {loc : Location} (hloc : loc ∈ layout.locations) (hbad : ¬ Declarable loc.type loc.fields)

theorem not_faulty_iff : ¬ layout.Faulty ↔
    layout.Readable ∧ ∀ loc ∈ layout.locations, Declarable loc.type loc.fields := by
  constructor
  · intro h
    have hslots (slot) (hslot : slot ∈ layout.slots) : IsWord slot.key := by
      by_contra hbad
      exact h (.slot hslot hbad)
    have hindex (mapping) (hmapping : mapping ∈ layout.mappings) : IsWord mapping.index := by
      by_contra hbad
      exact h (.index hmapping hbad)
    have hkeys (mapping) (hmapping : mapping ∈ layout.mappings) (key) (hkey : key ∈ mapping.keys) :
        mapping.ReadableKey key := by
      refine ⟨?_, fun word hword => ?_⟩ <;> by_contra hbad
      · exact h (.wordCount hmapping hkey hbad)
      · exact h (.word hmapping hkey hword hbad)
    have hlocs (loc) (hloc : loc ∈ layout.locations) : Declarable loc.type loc.fields := by
      by_contra hbad
      exact h (.metadata hloc hbad)
    exact ⟨⟨hslots, fun mapping hmapping => ⟨hindex mapping hmapping, hkeys mapping hmapping⟩⟩, hlocs⟩
  · rintro ⟨hread, hdecl⟩ h
    cases h with
    | slot hslot hbad => exact hbad (hread.slots _ hslot)
    | index hmapping hbad => exact hbad (hread.mappings _ hmapping).1
    | wordCount hmapping hkey hbad => exact hbad ((hread.mappings _ hmapping).2 _ hkey).1
    | word hmapping hkey hword hbad => exact hbad (((hread.mappings _ hmapping).2 _ hkey).2 _ hword)
    | metadata hloc hbad => exact hbad (hdecl _ hloc)

theorem exists_table_iff : (∃ table, layout.table = .ok table) ↔ ¬ layout.Faulty := by
  have hall : (∃ found, layout.locations.mapM Location.declaration = .ok found) ↔
      ∀ loc ∈ layout.locations, Declarable loc.type loc.fields := by
    simp only [exists_mapM_eq_ok, Location.exists_declaration_iff]
  rw [not_faulty_iff, ← hall]
  simp only [table, map_eq_ok, declarations_eq_ok]
  exact ⟨fun ⟨_, found, ⟨hread, hfound⟩, _⟩ => ⟨hread, found, hfound⟩,
    fun ⟨hread, found, hfound⟩ => ⟨_, found, ⟨hread, hfound⟩, rfl⟩⟩

end Layout

/-! ## The last declaration -/

namespace Location

/-- Metadata says what is declared at a location. -/
structure Describes (loc : Location) (m : Metadata) : Prop where
  name : m.name = loc.name
  labels : m.labels = Table.ofList loc.labels
  shape : m.shape = Shape.declared loc.type loc.fields

variable {loc : Location} {e : Declaration} {m : Metadata}

theorem describes_of_declaration (h : loc.declaration = .ok e) : loc.Describes e.2 := by
  obtain ⟨-, -, hname, hlabels, hshape⟩ := declaration_eq_ok.1 h
  exact ⟨hname, hlabels, hshape⟩

/-- A location has one description. -/
theorem Describes.eq_of_declaration (hm : loc.Describes m) (h : loc.declaration = .ok e) :
    e = (loc.key, m) := by
  obtain ⟨hkey, -, hname, hlabels, hshape⟩ := declaration_eq_ok.1 h
  obtain ⟨key, name, labels, shape, valid⟩ := e
  obtain ⟨name', labels', shape', valid'⟩ := m
  obtain rfl : name = name' := hname.trans hm.name.symm
  obtain rfl : labels = labels' := hlabels.trans hm.labels.symm
  obtain rfl : shape = shape' := hshape.trans hm.shape.symm
  rw [hkey]

theorem map_key_of_declaration {locs : List Location} {found : List Declaration}
    (h : List.Forall₂ (fun loc e => loc.declaration = .ok e) locs found) :
    locs.map key = found.map Prod.fst := by
  rw [← List.forall₂_eq_eq_eq, List.forall₂_map_left_iff, List.forall₂_map_right_iff]
  exact h.imp fun _ _ he => (declaration_eq_ok.1 he).1

end Location

namespace Layout

variable {layout : Layout}

/-- Metadata says what is declared at a word, and nothing is declared there later on. -/
def DeclaresLast (layout : Layout) (word : Word) (m : Metadata) : Prop :=
  ∃ front loc back, layout.locations = front ++ loc :: back ∧ loc.key = word ∧ loc.Describes m ∧
    word ∉ back.map Location.key

theorem get?_ofList_declarations {found : List Declaration} {word : Word} {m : Metadata}
    (h : List.Forall₂ (fun loc e => loc.declaration = .ok e) layout.locations found) :
    (Table.ofList found).get? word = some m ↔ layout.DeclaresLast word m := by
  rw [Table.get?_ofList_eq_some]
  constructor
  · rintro ⟨front, back, rfl, hback⟩
    obtain ⟨front', loc, back', hlocs, hloc, hrest⟩ := exists_of_forall₂_append h
    refine ⟨front', loc, back', hlocs, (Location.declaration_eq_ok.1 hloc).1,
      Location.describes_of_declaration hloc, ?_⟩
    rwa [Location.map_key_of_declaration hrest]
  · rintro ⟨front, loc, back, hlocs, rfl, hm, hback⟩
    rw [hlocs] at h
    obtain ⟨front', e, back', rfl, he, hrest⟩ := exists_of_forall₂_append
      (List.Forall₂.flip (R := fun e loc => Location.declaration loc = .ok e) h)
    obtain rfl := hm.eq_of_declaration he
    refine ⟨front', back', rfl, ?_⟩
    rwa [← Location.map_key_of_declaration hrest.flip]

/-! ## Keys in either form -/

end Layout

/-- A key in the form of a list. -/
def MappingKey.listed (key : MappingKey) : MappingKey := .nested key.words

/-- A mapping with all keys in the form of lists. -/
def MappingDecl.listed (mapping : MappingDecl) : MappingDecl :=
  { mapping with keys := mapping.keys.map MappingKey.listed }

theorem MappingDecl.declarations_listed (mapping : MappingDecl) :
    mapping.listed.declarations mapping.listed.keys = mapping.declarations mapping.keys := by
  have hkeys (index : Word) : mapping.listed.keys.mapM (mapping.listed.declarationsFor index) =
      mapping.keys.mapM (mapping.declarationsFor index) := by
    rw [listed, List.mapM_map]
    rfl
  unfold declarations
  exact bind_congr fun index => by rw [hkeys]

namespace Layout

/-- A layout with all keys in the form of lists. -/
def listed (layout : Layout) : Layout :=
  { layout with mappings := layout.mappings.map MappingDecl.listed }

theorem table_listed (layout : Layout) : layout.listed.table = layout.table := by
  have hentries : (layout.listed.mappings.mapM fun mapping => mapping.declarations mapping.keys) =
      layout.mappings.mapM fun mapping => mapping.declarations mapping.keys := by
    rw [listed, List.mapM_map]
    exact congrArg (layout.mappings.mapM ·) (funext MappingDecl.declarations_listed)
  simp only [table, declarations, hentries]
  rfl

/-- **What the key table of a layout holds.** There is none exactly if the layout is faulty: a slot number,
an index or a word of a key cannot be read, a key has not as many words as its mapping has levels, or
something that is enumerated cannot be decoded. Otherwise its keys are the enumerated locations, and each of
them has the metadata of the last declaration there. It makes no difference in any case whether a key of one
word is written as the word or as a list. -/
theorem table_exact (layout : Layout) :
    ((∃ e, layout.table = .error e) ↔ layout.Faulty) ∧
    (∀ table, layout.table = .ok table →
      (∀ word, word ∈ table.keys ↔ word ∈ layout.locations.map Location.key) ∧
      ∀ word m, table.get? word = some m ↔ layout.DeclaresLast word m) ∧
    ∀ other : Layout, other.listed = layout.listed → other.table = layout.table := by
  refine ⟨?_, fun table htable => ?_, fun other hother => ?_⟩
  · rw [← not_iff_not, ← exists_table_iff]
    cases layout.table <;> simp
  · obtain ⟨found, hfound, rfl⟩ := map_eq_ok.1 htable
    have hall := mapM_eq_ok.1 (declarations_eq_ok.1 hfound).2
    refine ⟨fun word => ?_, fun word m => get?_ofList_declarations hall⟩
    rw [Table.mem_keys_ofList, Location.map_key_of_declaration hall]
  · rw [← table_listed other, hother, table_listed]

/-- A slot that is declared twice, in decimal and in hexadecimal digits, and a mapping of structs. -/
def repeatedSlot (key : MappingKey) : Layout where
  slots := [
    { key := "5", name := "nonce", type := .uint256 },
    { key := " 0x05", name := "owner", type := .address }]
  mappings := [
    { index := "1", name := "positions", keyNames := ["owner"], keys := [key], members := [
        { offset := 0, name := "shares", type := .uint128 },
        { offset := 1, name := "since", type := .uint64 }] }]

/-- The second declaration counts, however the key of the mapping is written; with a second word in the key
there is no table. -/
theorem table_exact_sample :
    (∃ table, (repeatedSlot (.single "7")).table = .ok table ∧
      (repeatedSlot (.nested ["7"])).table = .ok table ∧
      table.get? (Word.ofNat 5) = some ⟨"owner", Table.empty, .plain .address, by decide⟩) ∧
    ∃ e, (repeatedSlot (.nested ["7", "8"])).table = .error e := by
  obtain ⟨-, htable, hlisted⟩ := table_exact (repeatedSlot (.single "7"))
  have hsound : ¬ (repeatedSlot (.single "7")).Faulty := by
    rw [not_faulty_iff]
    refine ⟨⟨?_, ?_⟩, by decide +kernel⟩
    · simp only [repeatedSlot, List.forall_mem_cons]
      exact ⟨⟨_, rfl⟩, ⟨_, rfl⟩, by simp⟩
    · simp only [repeatedSlot, List.forall_mem_singleton]
      exact ⟨⟨_, rfl⟩, rfl, fun word hword => List.mem_singleton.1 hword ▸ ⟨_, rfl⟩⟩
  obtain ⟨table, hok⟩ := exists_table_iff.2 hsound
  refine ⟨⟨table, hok, (hlisted _ rfl).trans hok, ((htable table hok).2 _ _).2 ?_⟩, ?_⟩
  · exact ⟨[_], _, [_, _], rfl, by decide, ⟨rfl, rfl, rfl⟩, by decide +kernel⟩
  · exact (table_exact _).1.2 (.wordCount List.mem_cons_self List.mem_cons_self (by decide))

end Layout

end SlotIndex
