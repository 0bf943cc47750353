import SlotIndex.Proofs.Layout.Locations

/-!
# What a check at startup finds

A layout is checked once, when its decoder is built, and its key table is loaded many times. The check
makes the declarations of the layout, and so it sees what a mapping declares only if the mapping has a
key of its own. A mapping without one passes the check whatever it declares; the fault then appears in
the first load for which a query yields a key.

* `check_eq_ok`: when a check succeeds.
* `exists_load_iff`: when a load succeeds.
* **`sound_of_check`**: what a successful check says about the layout and about every later load;
  `faulty_mapping_unchecked`: a fault that it does not find.
-/

namespace SlotIndex.Layout

variable {layout : Layout}

theorem check_eq_ok {contract : String} {hasDatabase : Bool} :
    layout.check contract hasDatabase = .ok () ↔
      (∃ found, layout.declarations = .ok found) ∧
      (hasDatabase = true ∨ ∀ mapping ∈ layout.mappings, mapping.keysQuery = none) := by
  unfold check
  rw [bind_eq_ok]
  cases hasDatabase with
  | true => simp [pure, Except.pure]
  | false =>
    cases hfind : layout.mappings.find? fun mapping => mapping.keysQuery.isSome with
    | none =>
      have hnone : ∀ mapping ∈ layout.mappings, mapping.keysQuery = none := by
        simpa using List.find?_eq_none.1 hfind
      rw [and_iff_left (Or.inr hnone)]
      simp [pure, Except.pure]
    | some mapping =>
      have hmem := List.mem_of_find?_eq_some hfind
      have hsome : mapping.keysQuery.isSome = true := by simpa using List.find?_some hfind
      have hnot : ¬ ∀ mapping ∈ layout.mappings, mapping.keysQuery = none := by
        intro hnone
        rw [hnone mapping hmem] at hsome
        contradiction
      simp [throw, throwThe, MonadExceptOf.throw, hnot]

theorem exists_queried_iff {query : String → Except StorageError (List MappingKey)}
    {mapping : MappingDecl} :
    (∃ found, queried query mapping = .ok found) ↔
      ∀ text, mapping.keysQuery = some text →
        ∃ keys found, query text = .ok keys ∧ mapping.declarations keys = .ok found := by
  unfold queried
  cases mapping.keysQuery with
  | none => simp
  | some text =>
    simp only [bind_eq_ok, Option.some.injEq, forall_eq']
    exact exists_comm

theorem exists_load_iff {query : String → Except StorageError (List MappingKey)} :
    (∃ table, layout.load query = .ok table) ↔
      (∃ found, layout.declarations = .ok found) ∧
      ∀ mapping ∈ layout.mappings, ∀ text, mapping.keysQuery = some text →
        ∃ keys found, query text = .ok keys ∧ mapping.declarations keys = .ok found := by
  simp only [← exists_queried_iff, ← exists_mapM_eq_ok, load, table, bind_eq_ok, map_eq_ok,
    pure_eq_ok]
  constructor
  · rintro ⟨-, -, ⟨found, hfound, -⟩, lists, hlists, -⟩
    exact ⟨⟨found, hfound⟩, lists, hlists⟩
  · rintro ⟨⟨found, hfound⟩, lists, hlists⟩
    exact ⟨_, _, ⟨found, hfound, rfl⟩, lists, hlists, rfl⟩

/-- **What a check at startup finds.** After a successful check every state variable can be decoded,
and so can every mapping that has keys of its own. A later load succeeds exactly if every query
succeeds with keys that can be read and, where a mapping has only the keys of its query, the mapping
can be decoded as soon as there is one. -/
theorem sound_of_check {contract : String} {hasDatabase : Bool}
    (h : layout.check contract hasDatabase = .ok ()) :
    (∀ slot ∈ layout.slots, Declarable slot.type slot.packed) ∧
    (∀ mapping ∈ layout.mappings, mapping.keys ≠ [] → mapping.Sound) ∧
    ∀ query, (∃ table, layout.load query = .ok table) ↔
      ∀ mapping ∈ layout.mappings, ∀ text, mapping.keysQuery = some text →
        ∃ keys, query text = .ok keys ∧ ∀ key ∈ keys,
          (∃ words, mapping.Reads key words) ∧ (mapping.keys = [] → mapping.Sound) := by
  obtain ⟨hdecl, -⟩ := check_eq_ok.1 h
  obtain ⟨hslots, hmappings⟩ := exists_declarations_iff.1 hdecl
  have hsound : ∀ mapping ∈ layout.mappings, mapping.keys ≠ [] → mapping.Sound := by
    intro mapping hmapping hkeys
    obtain ⟨key, hkey⟩ := List.exists_mem_of_ne_nil _ hkeys
    exact ((hmappings mapping hmapping).2 key hkey).2
  refine ⟨fun slot hslot => (hslots slot hslot).2, hsound, fun query => ?_⟩
  rw [exists_load_iff, and_iff_right hdecl]
  refine forall₂_congr fun mapping hmapping => forall₂_congr fun text _ => ?_
  -- the index of the mapping is a word, whatever its keys are
  simp only [exists_and_left, MappingDecl.exists_declarations_iff,
    and_iff_right (hmappings mapping hmapping).1]
  refine exists_congr fun keys => and_congr_right fun _ => forall₂_congr fun key _ =>
    and_congr_right fun _ => ?_
  by_cases hkeys : mapping.keys = []
  · simp [hkeys]
  · simp [hkeys, hsound mapping hmapping hkeys]

/-- A mapping of plain numbers with a packed field. -/
def faultyMapping (keysQuery : Option String) : MappingDecl where
  index := "1"
  name := "balances"
  keyNames := ["owner"]
  keysQuery := keysQuery
  packed := [⟨"amount", .uint8⟩]

/-- A state variable, a mapping with a key, and a mapping whose keys are queried. -/
def sampleLayout : Layout where
  slots := [{ key := "0", name := "owner", type := .address }]
  mappings := [
    { index := "1", name := "balances", keyNames := ["owner"], keys := [.single "7"] },
    { index := "2", name := "allowances", keyNames := ["owner", "spender"], keysQuery := "pairs" }]

/-- It passes the check, and with pairs of words for the queried keys it can be loaded. -/
theorem sound_of_check_sample :
    sampleLayout.check "token" true = .ok () ∧
      ∃ table, sampleLayout.load (fun _ => .ok [.nested ["1", "2"]]) = .ok table := by
  have hcheck : sampleLayout.check "token" true = .ok () := by rfl
  refine ⟨hcheck, ((sound_of_check hcheck).2.2 _).2 fun mapping hmapping text htext => ?_⟩
  refine ⟨[.nested ["1", "2"]], rfl, fun key hkey => ?_⟩
  obtain rfl := List.mem_singleton.1 hkey
  obtain rfl | rfl : mapping = _ ∨ mapping = _ := by simpa [sampleLayout] using hmapping
  · contradiction
  · exact ⟨⟨[Word.ofNat 1, Word.ofNat 2], rfl, .cons rfl (.cons rfl .nil)⟩, fun _ => by decide⟩

/-- **A mapping without keys is not checked.** It passes although it cannot be decoded, and a key that
a query supplies makes a load fail. -/
theorem faulty_mapping_unchecked :
    (Layout.mk [] [faultyMapping none]).check "token" false = .ok () ∧
    ¬ (faultyMapping none).Sound ∧
    (Layout.mk [] [faultyMapping (some "owners")]).check "token" true = .ok () ∧
    (Layout.mk [] [faultyMapping (some "owners")]).load (fun _ => .ok [.single "7"]) =
      .error (.invalidMetadata "balances"
        "packed fields given for a slot that is not a packed slot") := by
  refine ⟨by rfl, by decide, by rfl, by rfl⟩

end SlotIndex.Layout
