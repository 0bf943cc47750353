import SlotIndex.Proofs.FirstOccurrences
import SlotIndex.Proofs.Slot.Declared
import SlotIndex.Sql.ValueRows

/-!
# Stored rows of decoded values

A decoded word yields one row of the value table for each of its texts. Rows are told apart by the diff
and the name, and a row that conflicts with one that is there is not stored. All rows of a diff are stored
exactly if the declared names differ.

* `TextRow`, `TextRow.operation`: rows, and the writes that insert them.
* `TextRow.conflicts_iff`: which rows conflict.
* `RowsOf`: the rows of a decoded value.
* `rowsOf_decode`: the writes of a decoded word insert these rows.
* **`stored_iff_names_differ`**; `second_field_lost`: two fields of one name.
-/

namespace SlotIndex

/-! ## Rows -/

/-- The values of a write in the columns that tell rows apart. -/
def Sql.Operation.conflictValues : Sql.Operation → List Sql.Value
  | .upsert _ columns values conflict _ => conflict.filterMap fun c => (columns.zip values).lookup c
  | .update .. | .delete .. => []

/-- A row of the value table. -/
structure TextRow where
  diffId : DiffId
  contract : String
  name : String
  account : Word
  height : UInt64
  blockHash : Word
  keys : Json
  value : Json

namespace TextRow

/-- The write that inserts a row. It updates nothing where the row conflicts. -/
def operation (r : TextRow) : Sql.Operation :=
  .upsert "storage_values" valueColumns
    [.int64 r.diffId, .text r.contract, .text r.name, .word r.account, .uint64 r.height,
      .word r.blockHash, .json r.keys, .json r.value]
    valueConflictColumns []

/-- What tells rows apart. -/
def key (r : TextRow) : DiffId × String := (r.diffId, r.name)

/-- A row is written. If it conflicts with one that is there, nothing is done. -/
def insert (rows : List TextRow) (r : TextRow) : List TextRow := addNew key rows r

theorem conflictValues_operation (r : TextRow) :
    r.operation.conflictValues = [.int64 r.diffId, .text r.name] := rfl

/-- Rows with the same values in the columns that tell rows apart are those with one key. -/
theorem conflicts_iff {r s : TextRow} :
    r.operation.conflictValues = s.operation.conflictValues ↔ r.key = s.key := by
  simp [conflictValues_operation, key]

/-- The row of one named text. -/
def ofText (contract : String) (d : StoredDiff) (m : Metadata) (name text : String) : TextRow where
  diffId := d.id
  contract
  name
  account := d.diff.account
  height := d.diff.height
  blockHash := d.diff.blockHash
  keys := Labels.toJson m.labels
  value := .ofString text

theorem valueOperation_eq (contract : String) (d : StoredDiff) (m : Metadata)
    (named : String × String) :
    valueOperation contract d m named = (ofText contract d m named.1 named.2).operation := rfl

end TextRow

/-! ## The rows of a word -/

/-- The names under which the texts of a slot are stored: its own, or those of its packed fields. -/
def Metadata.names (m : Metadata) : List String :=
  match m.shape with
  | .plain _ => [m.name]
  | .packed fields => fields.map Field.name

/-- The rows of a decoded value: one for a plain slot, and for a packed one the text at each position
under the name of the field there. -/
inductive RowsOf (contract : String) (d : StoredDiff) (m : Metadata) :
    DecodedValue → List TextRow → Prop where
  | plain {type : ValueType} {text : String} (h : m.shape = .plain type) :
      RowsOf contract d m (.single text) [.ofText contract d m m.name text]
  | packed {fields : List Field} {texts : List String} (h : m.shape = .packed fields)
      (hlength : fields.length = texts.length) :
      RowsOf contract d m (.ofTexts texts)
        ((fields.zip texts).map fun e => .ofText contract d m e.1.name e.2)

section Rows

variable {contract : String} {d : StoredDiff} {m : Metadata} {value : DecodedValue}
  {rows : List TextRow}

theorem length_cutFields {fields : List Field} {left : List UInt8} {texts : List String}
    (h : cutFields? fields left = some texts) : fields.length = texts.length := by
  induction fields generalizing left texts with
  | nil =>
    obtain rfl := Option.some.inj h
    rfl
  | cons f rest ih =>
    rw [cutFields?] at h
    split at h
    · next text texts' _ hrest =>
      obtain rfl := Option.some.inj h
      rw [List.length_cons, List.length_cons, ih hrest]
    · contradiction

/-- Texts find the names of the fields at their positions, which begin behind those in front. -/
theorem filterMap_zipIdx (front fields : List Field) {texts : List String}
    (hlength : fields.length = texts.length) :
    ((texts.zipIdx front.length).map fun e => (e.2, e.1)).filterMap
        (fun e => ((front ++ fields)[e.1]?).map fun f => (f.name, e.2)) =
      (fields.zip texts).map fun e => (e.1.name, e.2) := by
  induction texts generalizing front fields with
  | nil =>
    rw [List.eq_nil_of_length_eq_zero hlength]
    rfl
  | cons text texts ih =>
    cases fields with
    | nil => contradiction
    | cons f fields =>
      have hrest := ih (front ++ [f]) fields (Nat.succ.inj hlength)
      rw [List.length_append, List.length_singleton, List.append_assoc] at hrest
      rw [List.zipIdx_cons, List.map_cons, List.filterMap_cons_some (b := (f.name, text)) (by simp)]
      exact congrArg (_ :: ·) hrest

/-- A decoded word has the rows of its texts, and the writes insert them. -/
theorem rowsOf_decode (contract : String) (d : StoredDiff) (m : Metadata) (raw : Word) :
    ∃ rows, RowsOf contract d m (m.decode raw) rows ∧
      valueOperations contract d m (m.decode raw) = rows.map TextRow.operation := by
  have hdecode : m.shape.decode? raw = some (m.decode raw) := (Option.some_get _).symm
  cases hshape : m.shape with
  | plain type =>
    rw [hshape] at hdecode
    obtain ⟨text, -, htext⟩ := Option.map_eq_some_iff.1 hdecode
    rw [← htext]
    exact ⟨_, .plain hshape, rfl⟩
  | packed fields =>
    rw [hshape] at hdecode
    obtain ⟨texts, hcut, htexts⟩ := Option.map_eq_some_iff.1 hdecode
    have hlength := length_cutFields hcut
    have hfields : m.fields = fields := by rw [Metadata.fields, hshape]
    rw [← htexts]
    refine ⟨_, .packed hshape hlength, ?_⟩
    have hnamed := filterMap_zipIdx [] fields hlength
    rw [valueOperations, DecodedValue.ofTexts, namedTexts, hfields]
    refine (congrArg (List.map _) hnamed).trans ?_
    rw [List.map_map, List.map_map]
    exact List.map_congr_left fun _ _ => TextRow.valueOperation_eq ..

/-- The rows bear the declared names, in the order of the positions. -/
theorem RowsOf.names (h : RowsOf contract d m value rows) : rows.map TextRow.name = m.names := by
  cases h with
  | plain h => rw [Metadata.names, h]; rfl
  | @packed fields texts h hlength =>
    calc _ = ((fields.zip texts).map Prod.fst).map Field.name := by
          rw [List.map_map, List.map_map]
          rfl
      _ = m.names := by rw [List.map_fst_zip (Nat.le_of_eq hlength), Metadata.names, h]

theorem RowsOf.diffId (h : RowsOf contract d m value rows) : ∀ r ∈ rows, r.diffId = d.id := by
  intro r hr
  cases h with
  | plain => rw [List.mem_singleton.1 hr]; rfl
  | packed =>
    obtain ⟨e, -, rfl⟩ := List.mem_map.1 hr
    rfl

theorem RowsOf.map_key (h : RowsOf contract d m value rows) :
    rows.map TextRow.key = m.names.map (d.id, ·) := by
  rw [← h.names, List.map_map]
  exact List.map_congr_left fun r hr => congrArg (·, r.name) (h.diffId r hr)

/-- The rows of a word differ in their keys exactly if the declared names differ. -/
theorem RowsOf.nodup_key_iff (h : RowsOf contract d m value rows) :
    (rows.map TextRow.key).Nodup ↔ m.names.Nodup := by
  rw [h.map_key]
  exact List.nodup_map_iff fun _ _ heq => (Prod.mk.inj heq).2

/-- Writes differ in their values in the conflict columns exactly if their rows differ in their keys. -/
theorem nodup_conflictValues_iff (rows : List TextRow) :
    ((rows.map TextRow.operation).map Sql.Operation.conflictValues).Nodup ↔
      (rows.map TextRow.key).Nodup := by
  simp only [List.Nodup, List.pairwise_map, ne_eq, TextRow.conflicts_iff]

/-- The rows of a diff of which no row is there are all stored exactly if their names differ. -/
theorem RowsOf.foldl_insert_eq_append_iff (h : RowsOf contract d m value rows)
    {table : List TextRow} (hnew : ∀ r ∈ table, r.diffId ≠ d.id) :
    rows.foldl TextRow.insert table = table ++ rows ↔ m.names.Nodup := by
  refine (foldl_addNew_eq_append_iff TextRow.key).trans ?_
  rw [h.nodup_key_iff]
  refine and_iff_left ?_
  intro r hr hkey
  obtain ⟨s, hs, heq⟩ := List.mem_map.1 hkey
  exact hnew s hs ((Prod.mk.inj heq).1.trans (h.diffId r hr))

end Rows

/-- **All rows of a diff are stored exactly if the declared names differ.** The writes of a decoded word
insert one row for a plain slot and one for each position of a packed one, in their order, each with the
declared name and the text at its position. In a table without rows of the diff, the first row of each name
is stored; all rows are, and no two of them conflict, exactly if no name is declared twice. Nothing changes
when the rows are inserted once more. -/
theorem stored_iff_names_differ (contract : String) (d : StoredDiff) (m : Metadata) (raw : Word) :
    ∃ rows, RowsOf contract d m (m.decode raw) rows ∧
      valueOperations contract d m (m.decode raw) = rows.map TextRow.operation ∧
      (((valueOperations contract d m (m.decode raw)).map Sql.Operation.conflictValues).Nodup ↔
        m.names.Nodup) ∧
      ∀ table : List TextRow, (∀ r ∈ table, r.diffId ≠ d.id) →
        let stored := rows.foldl TextRow.insert table
        stored = table ++ firstsBeside TextRow.key table rows ∧
          (stored = table ++ rows ↔ m.names.Nodup) ∧
          rows.foldl TextRow.insert stored = stored := by
  obtain ⟨rows, hrows, hoperations⟩ := rowsOf_decode contract d m raw
  refine ⟨rows, hrows, hoperations, ?_, ?_⟩
  · rw [hoperations, nodup_conflictValues_iff, hrows.nodup_key_iff]
  · intro table hnew
    refine ⟨foldl_addNew TextRow.key table rows, hrows.foldl_insert_eq_append_iff hnew, ?_⟩
    refine foldl_addNew_of_mem TextRow.key fun r hr => ?_
    exact (mem_map_foldl_addNew TextRow.key).2 (.inr (List.mem_map_of_mem hr))

/-- The diff of a word whose last bytes are 2 and 1. -/
def sampleRowDiff : StoredDiff := ⟨77, ⟨default, default, 10, default, Word.ofNat 513⟩⟩

/-- Two fields of different names. -/
def distinctFields : Metadata :=
  ⟨"pair", Table.empty, .packed [⟨"ttl", .uint8⟩, ⟨"tau", .uint8⟩], by decide⟩

theorem stored_iff_names_differ_pair :
    distinctFields.names.Nodup ∧
      ∃ rows, RowsOf "token" sampleRowDiff distinctFields (.ofTexts ["1", "2"]) rows ∧
        rows.foldl TextRow.insert [] = rows := by
  have hdecode : distinctFields.decode sampleRowDiff.diff.value = .ofTexts ["1", "2"] := by
    decide +kernel
  have hnames : distinctFields.names.Nodup := by decide
  obtain ⟨rows, hrows, -, -, hstored⟩ :=
    stored_iff_names_differ "token" sampleRowDiff distinctFields sampleRowDiff.diff.value
  rw [hdecode] at hrows
  exact ⟨hnames, rows, hrows, (hstored [] (fun _ hr => absurd hr List.not_mem_nil)).2.1.2 hnames⟩

/-- Two fields of one name. -/
def equalFields : Metadata :=
  ⟨"pair", Table.empty, .packed [⟨"a", .uint8⟩, ⟨"a", .uint8⟩], by decide⟩

/-- Fields of one name are accepted, and the second one is lost. -/
theorem second_field_lost :
    Metadata.ofSlot "pair" Table.empty .packedSlot [⟨"a", .uint8⟩, ⟨"a", .uint8⟩] =
        .ok equalFields ∧
      equalFields.decode sampleRowDiff.diff.value = .ofTexts ["1", "2"] ∧
      ¬ ((valueOperations "token" sampleRowDiff equalFields (.ofTexts ["1", "2"])).map
        Sql.Operation.conflictValues).Nodup ∧
      ∃ first second,
        RowsOf "token" sampleRowDiff equalFields (.ofTexts ["1", "2"]) [first, second] ∧
          valueOperations "token" sampleRowDiff equalFields (.ofTexts ["1", "2"]) =
            [first.operation, second.operation] ∧
          [first, second].foldl TextRow.insert [] = [first] := by
  refine ⟨Metadata.ofSlot_eq_ok.2 ⟨.inl rfl, rfl, rfl, rfl⟩, by decide +kernel, ?_, ?_⟩
  · intro hnodup
    exact (List.nodup_cons.1 hnodup).1 List.mem_cons_self
  · let row (text : String) := TextRow.ofText "token" sampleRowDiff equalFields "a" text
    have hrows := @RowsOf.packed "token" sampleRowDiff equalFields _ ["1", "2"] rfl rfl
    exact ⟨row "1", row "2", hrows, rfl, rfl⟩

end SlotIndex
