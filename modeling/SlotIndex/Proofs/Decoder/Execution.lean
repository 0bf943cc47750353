import SlotIndex.Decoder
import SlotIndex.Proofs.Layout.Startup
import SlotIndex.Proofs.Slot.Aliases

/-!
# Decoding a declared layout

A decoder for a layout without queries hands one row to the value table for a diff at a declared
location, under the key of the location or under its hash: the row has the declared name, the labels
of the mapping key as they are written, and the value under the declared type. A diff at any other key
is an error that leaves the value table alone. This holds in every state that earlier calls have left
behind, in whatever order the loads listed their keys.

* `Layout.Loads`, `Layout.Reached`: what loads can yield, and the states behind calls.
* `Lookup.Faithful`: nothing is known that is not declared; `Reached.faithful`.
* `find_of_faithful`: what a faithful state finds.
* **`executeDiff_declared`**: what a decoder does with a diff.
-/

namespace SlotIndex

/-! ## Faithful states -/

namespace Lookup

variable {entries : List Declaration} {s : Lookup} {x : Word}

/-- Whatever is known under a word is the metadata of an entry that is entered under it. -/
def Faithful (entries : List Declaration) (s : Lookup) : Prop :=
  ∀ x m, s.known.get? x = some m → ∃ e ∈ entries, isKnownAs x e = true ∧ e.2 = m

theorem faithful_empty : Faithful entries empty := by
  intro x m h
  contradiction

theorem faithful_ofLoaded {table : Table Word Metadata} (hperm : table.entries.Perm entries) :
    Faithful entries (ofLoaded table) := by
  intro x m h
  obtain ⟨e, he, hx, hm⟩ := exists_of_get?_ofLoaded h
  exact ⟨e, hperm.mem_iff.1 he, hx, hm⟩

theorem after_find (s : Lookup) (table : Table Word Metadata) (x : Word) :
    (s.find (.ok table) x).after = s ∨ (s.find (.ok table) x).after = ofLoaded table := by
  unfold find
  cases s.known.get? x with
  | some m => exact .inl rfl
  | none =>
    right
    dsimp only
    split <;> rfl

/-- A word under which an entry is entered has the metadata of the entry, known before or not. -/
theorem find_of_faithful (hapart : Apart (entries.map Prod.fst)) (hs : s.Faithful entries)
    {table : Table Word Metadata} (hperm : table.entries.Perm entries) {e : Declaration}
    (he : e ∈ entries) (hx : isKnownAs x e = true) : (s.find (.ok table) x).result = .ok e.2 := by
  unfold find
  cases hknown : s.known.get? x with
  | some m =>
    obtain ⟨e', he', hx', rfl⟩ := hs x m hknown
    rw [hapart.eq_of_isKnownAs he he' hx hx']
  | none =>
    have hkeys : Apart table.keys := by
      unfold Apart Table.keys at *
      exact ((hperm.map Prod.fst).append ((hperm.map Prod.fst).map Word.hash)).nodup_iff.2 hapart
    have hloaded := get?_ofLoaded_of_apart hkeys (hperm.mem_iff.2 he) hx
    simp only [hloaded]

theorem find_of_faithful_of_unknown (hs : s.Faithful entries) {table : Table Word Metadata}
    (hperm : table.entries.Perm entries) (hx : ∀ e ∈ entries, isKnownAs x e = false) :
    (s.find (.ok table) x).result = .error (.keyNotFound x) := by
  have hunknown : ∀ {t : Lookup}, t.Faithful entries → t.known.get? x = none := by
    intro t ht
    cases hknown : t.known.get? x with
    | none => rfl
    | some m =>
      obtain ⟨e, he, hxe, -⟩ := ht x m hknown
      rw [hx e he] at hxe
      contradiction
  simp only [find, hunknown hs, hunknown (faithful_ofLoaded hperm)]

end Lookup

/-! ## Loads of a layout -/

namespace Layout

variable {layout : Layout}

/-- The keys of everything that a layout declares by itself; a faulty layout declares nothing. -/
def keys (layout : Layout) : List Word :=
  match layout.declarations with
  | .ok found => found.map Prod.fst
  | .error _ => []

/-- What a load can yield: the key table with its entries in any order, or the error. -/
inductive Loads (layout : Layout) : Loaded → Prop
  | ok {query : String → Except StorageError (List MappingKey)} {table reordered : Table Word Metadata}
      (hload : layout.load query = .ok table) (hperm : reordered.entries.Perm table.entries) :
    Loads layout (.ok reordered)
  | error {query : String → Except StorageError (List MappingKey)} {e : StorageError}
      (hload : layout.load query = .error e) : Loads layout (.error e)

/-- The states that a decoder can be in: at first it knows nothing, and then each call leaves a state
behind. -/
inductive Reached (layout : Layout) : Lookup → Prop
  | empty : Reached layout .empty
  | find {s : Lookup} {load : Loaded} (hs : Reached layout s) (hload : layout.Loads load)
      (key : Word) : Reached layout (s.find load key).after
  | list {s : Lookup} {load : Loaded} (hs : Reached layout s) (hload : layout.Loads load) :
    Reached layout (s.list load).after

variable {found : List Declaration}

theorem keys_eq (hdecl : layout.declarations = .ok found) : layout.keys = found.map Prod.fst := by
  rw [keys, hdecl]

/-- Without queries a load makes the key table that the layout declares. -/
theorem load_eq_ok (hqueries : ∀ mapping ∈ layout.mappings, mapping.keysQuery = none)
    (hdecl : layout.declarations = .ok found)
    (query : String → Except StorageError (List MappingKey)) :
    layout.load query = .ok (Table.ofList found) := by
  have hnone : ∀ mapping ∈ layout.mappings, queried query mapping = .ok [] := by
    intro mapping hmapping
    rw [queried, hqueries mapping hmapping]
  obtain ⟨lists, hlists⟩ := exists_mapM_eq_ok.2 fun mapping hmapping => ⟨_, hnone mapping hmapping⟩
  have hflatten : lists.flatten = [] := by
    rw [List.flatten_eq_nil_iff]
    intro list hlist
    obtain ⟨mapping, hmapping, hlist⟩ := (mem_of_mapM_eq_ok hlists).1 hlist
    exact Except.ok.inj (hlist.symm.trans (hnone mapping hmapping))
  simp only [load, table, bind_eq_ok, map_eq_ok, pure_eq_ok]
  refine ⟨_, ⟨found, hdecl, rfl⟩, lists, hlists, ?_⟩
  rw [hflatten]
  rfl

/-- Then a load yields the declarations of the layout, in any order. -/
theorem Loads.perm (hqueries : ∀ mapping ∈ layout.mappings, mapping.keysQuery = none)
    (hdecl : layout.declarations = .ok found) (hkeys : (found.map Prod.fst).Nodup) {load : Loaded}
    (h : layout.Loads load) : ∃ table, load = .ok table ∧ table.entries.Perm found := by
  cases h with
  | ok hload hperm =>
    rw [load_eq_ok hqueries hdecl] at hload
    cases hload
    rw [Table.entries_ofList hkeys] at hperm
    exact ⟨_, rfl, hperm⟩
  | error hload =>
    rw [load_eq_ok hqueries hdecl] at hload
    contradiction

theorem Reached.faithful (hqueries : ∀ mapping ∈ layout.mappings, mapping.keysQuery = none)
    (hdecl : layout.declarations = .ok found) (hkeys : (found.map Prod.fst).Nodup) {s : Lookup}
    (h : layout.Reached s) : s.Faithful found := by
  induction h with
  | empty => exact Lookup.faithful_empty
  | find hs hload key ih =>
    obtain ⟨table, rfl, hperm⟩ := hload.perm hqueries hdecl hkeys
    rcases Lookup.after_find _ table key with hafter | hafter
    · rw [hafter]
      exact ih
    · rw [hafter]
      exact Lookup.faithful_ofLoaded hperm
  | list hs hload ih =>
    obtain ⟨table, rfl, hperm⟩ := hload.perm hqueries hdecl hkeys
    exact Lookup.faithful_ofLoaded hperm

end Layout

/-! ## Rows -/

/-- A row shows the value of a diff as a location declares it. -/
structure ValueRow.Shows (row : ValueRow) (contract : String) (d : StoredDiff) (loc : Location) :
    Prop where
  contract_eq : row.contract = contract
  diff_eq : row.diff = d
  name_eq : row.metadata.name = loc.name
  labels_eq : row.metadata.labels.entries = loc.labels
  shape_eq : row.metadata.shape = Shape.declared loc.type loc.fields
  decode_eq : (Shape.declared loc.type loc.fields).decode? d.diff.value = some row.value

theorem Metadata.decode?_shape (m : Metadata) (raw : Word) :
    m.shape.decode? raw = some (m.decode raw) := by
  rw [decode, Option.some_get]

/-- The row that a decoder makes of a diff at a location. -/
theorem ValueRow.shows_of_declaration {loc : Location} {e : Declaration}
    (h : loc.declaration = .ok e) (hlabels : (loc.labels.map Prod.fst).Nodup) (contract : String)
    (d : StoredDiff) :
    (ValueRow.mk contract d e.2 (e.2.decode d.diff.value)).Shows contract d loc := by
  obtain ⟨-, -, hname, hlabelled, hshape⟩ := Location.declaration_eq_ok.1 h
  refine ⟨rfl, rfl, hname, ?_, hshape, ?_⟩
  · rw [hlabelled, Table.entries_ofList hlabels]
  · rw [← hshape, Metadata.decode?_shape]

section

variable {V : Type} (create : ValueRow → V → Except StorageError Unit × V) {contract : String}
  {s : Lookup} {load : Loaded} {d : StoredDiff} (table : V)

theorem executeDiff_of_found {m : Metadata} (h : (s.find load d.diff.key).result = .ok m) :
    let x := executeDiff contract create s load d table
    (x.result, x.table) = create ⟨contract, d, m, m.decode d.diff.value⟩ table := by
  simp only [executeDiff, decodeDiff, h]
  rfl

theorem executeDiff_of_error {e : StorageError} (h : (s.find load d.diff.key).result = .error e) :
    let x := executeDiff contract create s load d table
    (x.result, x.table) = (.error e, table) := by
  simp only [executeDiff, decodeDiff, h]
  rfl

theorem lookup_executeDiff :
    (executeDiff contract create s load d table).lookup = (s.find load d.diff.key).after := by
  cases h : (s.find load d.diff.key).result with
  | error e => simp only [executeDiff, decodeDiff, h, Except.map]
  | ok m => simp only [executeDiff, decodeDiff, h, Except.map]

end

namespace Layout

/-- **Decoding a declared layout.** A diff at a declared location, under the key of the location or
under its hash, becomes one row, which is handed to the value table and shows the diff as the location
declares it; the answer is that of the value table. A diff at any other key is an error that names the
key, and nothing is handed to the value table. Either way the same is true of the next diff. -/
theorem executeDiff_declared {layout : Layout} {contract : String} {hasDatabase : Bool}
    (hcheck : layout.check contract hasDatabase = .ok ())
    (hqueries : ∀ mapping ∈ layout.mappings, mapping.keysQuery = none)
    (hnames : ∀ mapping ∈ layout.mappings, mapping.keyNames.Nodup)
    (hapart : Lookup.Apart layout.keys)
    {s : Lookup} (hs : layout.Reached s) {load : Loaded} (hload : layout.Loads load)
    {V : Type} (create : ValueRow → V → Except StorageError Unit × V) (d : StoredDiff) (table : V) :
    let x := executeDiff contract create s load d table
    layout.Reached x.lookup ∧
    (∀ loc, layout.Declares loc → loc.key = d.diff.key ∨ loc.key.hash = d.diff.key →
      ∃ row : ValueRow, row.Shows contract d loc ∧ (x.result, x.table) = create row table) ∧
    ((∀ loc, layout.Declares loc → loc.key ≠ d.diff.key ∧ loc.key.hash ≠ d.diff.key) →
      (x.result, x.table) = (.error (.keyNotFound d.diff.key), table)) := by
  obtain ⟨⟨found, hdecl⟩, -⟩ := check_eq_ok.1 hcheck
  rw [keys_eq hdecl] at hapart
  have hkeys : (found.map Prod.fst).Nodup := (List.nodup_append.1 hapart).1
  have hfaithful := hs.faithful hqueries hdecl hkeys
  have hreached : layout.Reached (executeDiff contract create s load d table).lookup := by
    rw [lookup_executeDiff]
    exact hs.find hload d.diff.key
  obtain ⟨loaded, rfl, hperm⟩ := hload.perm hqueries hdecl hkeys
  refine ⟨hreached, ?_, ?_⟩
  · intro loc hloc hkey
    obtain ⟨e, he⟩ := Location.exists_declaration_iff.2 (hloc.declarable hdecl)
    have hmem : e ∈ found := (mem_declarations hdecl).2 ⟨loc, hloc, he⟩
    have hknown : isKnownAs d.diff.key e = true := by
      rw [isKnownAs_iff, ← (Location.declaration_eq_ok.1 he).1]
      exact hkey
    have hfind := Lookup.find_of_faithful hapart hfaithful hperm hmem hknown
    exact ⟨_, ValueRow.shows_of_declaration he (hloc.nodup_labels hnames) contract d,
      executeDiff_of_found create table hfind⟩
  · intro hother
    have hunknown : ∀ e ∈ found, isKnownAs d.diff.key e = false := by
      intro e he
      obtain ⟨loc, hloc, hdeclared⟩ := (mem_declarations hdecl).1 he
      rw [Bool.eq_false_iff, ne_eq, isKnownAs_iff, ← (Location.declaration_eq_ok.1 hdeclared).1,
        not_or]
      exact hother loc hloc
    exact executeDiff_of_error create table
      (Lookup.find_of_faithful_of_unknown hfaithful hperm hunknown)

/-- A packed state variable. -/
def vaultSettings : SlotDecl where
  key := "1"
  name := "settings"
  type := .packedSlot
  packed := [⟨"fee", .uint16⟩, ⟨"delay", .uint32⟩]

/-- Two state variables, one of them packed, and a mapping of structs with two levels. -/
def vaultLayout : Layout where
  slots := [{ key := "0", name := "admin", type := .address }, vaultSettings]
  mappings := [
    { index := "2", name := "positions", keyNames := ["owner", "pool"],
      keys := [.nested ["7", "0x09"]],
      members := [{ offset := 0, name := "shares", type := .uint128 },
        { offset := 1, name := "since", type := .uint64 }] }]

/-- The labels of the members of its struct. -/
def vaultLabels : Labels := Table.ofList [("owner", "7"), ("pool", "0x09")]

/-- The slot of its struct. -/
def vaultPosition : Word := nestedSlot [Word.ofNat 7, Word.ofNat 9] (Word.ofNat 2)

/-- What it declares. -/
def vaultDeclarations : List Declaration := [
  (Word.ofNat 0, ⟨"admin", Table.empty, .plain .address, by decide⟩),
  (Word.ofNat 1, ⟨"settings", Table.empty, .packed [⟨"fee", .uint16⟩, ⟨"delay", .uint32⟩], by decide⟩),
  (memberSlot vaultPosition 0, ⟨"shares", vaultLabels, .plain .uint128, by decide⟩),
  (memberSlot vaultPosition 1, ⟨"since", vaultLabels, .plain .uint64, by decide⟩)]

theorem declarations_vaultLayout : vaultLayout.declarations = .ok vaultDeclarations := by
  have hslots : vaultLayout.slots.mapM SlotDecl.declaration = .ok (vaultDeclarations.take 2) := by
    refine mapM_eq_ok.2 (.cons ?_ (.cons ?_ .nil))
    · exact SlotDecl.declaration_eq_ok.2
        ⟨_, rfl, Location.declaration_eq_ok.2 ⟨rfl, .inr rfl, rfl, rfl, rfl⟩⟩
    · exact SlotDecl.declaration_eq_ok.2
        ⟨_, rfl, Location.declaration_eq_ok.2 ⟨rfl, .inl rfl, rfl, rfl, rfl⟩⟩
  unfold declarations
  rw [hslots]
  rfl

/-- A diff at the hash of its packed slot. -/
def vaultDiff : StoredDiff where
  id := 1
  diff := ⟨Word.ofNat 0, Word.ofNat 0, 1, (Word.ofNat 1).hash, Word.ofNat 327683⟩

/-- The two fields of the packed slot are in the row that the decoder adds to an empty table. -/
theorem executeDiff_declared_vault :
    vaultLayout.check "vault" false = .ok () ∧ Lookup.Apart vaultLayout.keys ∧
    ∃ row : ValueRow, row.metadata.name = "settings" ∧ row.value = .packed [(0, "3"), (1, "5")] ∧
      let x := executeDiff "vault" (fun row rows => (.ok (), row :: rows)) .empty
        (.ok (Table.ofList vaultDeclarations)) vaultDiff []
      (x.result, x.table) = (.ok (), [row]) := by
  have hcheck : vaultLayout.check "vault" false = .ok () :=
    check_eq_ok.2 ⟨⟨_, declarations_vaultLayout⟩, .inr (by decide)⟩
  have hapart : Lookup.Apart vaultLayout.keys := by
    rw [keys_eq declarations_vaultLayout]
    decide +kernel
  have hload : vaultLayout.load noKeys = .ok (Table.ofList vaultDeclarations) :=
    load_eq_ok (by decide) declarations_vaultLayout noKeys
  have hloc : vaultLayout.Declares (vaultSettings.location (Word.ofNat 1)) :=
    .slot (.tail _ (.head _)) rfl
  have hkey : (vaultSettings.location (Word.ofNat 1)).key.hash = vaultDiff.diff.key := by
    simp only [vaultDiff, SlotDecl.location]
  obtain ⟨row, hrow, hx⟩ := (executeDiff_declared hcheck (by decide) (by decide) hapart .empty
    (.ok hload (.refl _)) (fun row rows => (.ok (), row :: rows)) vaultDiff []).2.1 _ hloc
    (.inr hkey)
  have hdecode : (Shape.declared vaultSettings.type vaultSettings.packed).decode?
      vaultDiff.diff.value = some (.packed [(0, "3"), (1, "5")]) := by decide +kernel
  have hvalue : row.value = .packed [(0, "3"), (1, "5")] :=
    Option.some.inj (hrow.decode_eq.symm.trans hdecode)
  exact ⟨hcheck, hapart, row, hrow.name_eq, hvalue, hx⟩

end Layout

end SlotIndex
