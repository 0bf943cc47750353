import Mathlib.Data.List.Nodup
import SlotIndex.Proofs.Text.Decimal
import SlotIndex.Sql

/-!
# Placeholders and their parameters

A statement is sent as a text with placeholders and a list of parameters, which are put together apart
from each other. Read from left to right the text has the placeholders `$1`, `$2`, …, one for each value
of the write, and the parameter at each position is what is bound in place of the value there. So no value
ends up in the column of another one.

* `placeholdersIn`: the placeholders of a text. Every dollar sign begins one.
* `Operation.values`, `Operation.names`: the values of a write in order, and the names in it.
* `Numbered`: texts that hold the placeholders of values from a position on; `placeholdersIn_intercalate`.
* `numbered_placeholders`, `Binding.numbered_assignAll`: the two ways in which values are numbered.
* `Operation.params_statement`, `Operation.placeholdersIn_statement`: what is bound, and what is written.
* **`placeholders_match_parameters`**.
-/

namespace SlotIndex.Sql

/-! ## Placeholders of a text -/

/-- A placeholder: the digits of its position, and the type to which it is cast. -/
structure Placeholder where
  position : String
  cast? : Option String
deriving DecidableEq

/-- The name of a type behind two colons. -/
def castIn : List Char → Option String
  | ':' :: ':' :: rest => some (String.ofList (rest.takeWhile Char.isAlphanum))
  | _ => none

/-- The placeholders of a text, from left to right. -/
def placeholdersIn : List Char → List Placeholder
  | [] => []
  | c :: rest =>
    if c = '$' then
      ⟨String.ofList (rest.takeWhile Char.isDigit), castIn (rest.dropWhile Char.isDigit)⟩ ::
        placeholdersIn rest
    else placeholdersIn rest

/-- The placeholder that a value is to have at a position. -/
def Value.placeholderAt (v : Value) (position : Nat) : Placeholder :=
  ⟨Decimal.text position, if v.isJson then some "jsonb" else none⟩

/-- The placeholders that values are to have from a position on. -/
def placeholdersFrom (position : Nat) (values : List Value) : List Placeholder :=
  (values.zipIdx position).map fun e => e.1.placeholderAt e.2

namespace Operation

/-- The values of a write in order. -/
def values : Operation → List Value
  | .upsert _ _ values _ _ => values
  | .update _ set condition => set.map Assignment.value ++ [condition.value]
  | .delete _ condition => [condition.value]

/-- The table and the columns that a write names. -/
def names : Operation → List String
  | .upsert table columns _ conflict updated => table :: (columns ++ conflict ++ updated)
  | .update table set condition => table :: (set.map Assignment.column ++ [condition.column])
  | .delete table condition => [table, condition.column]

end Operation

/-! ## Reading placeholders -/

/-- What may follow a placeholder in a statement: nothing, a comma, a closing parenthesis or a blank. -/
def Closes (rest : List Char) : Prop := ∀ c ∈ rest.head?, c = ',' ∨ c = ')' ∨ c = ' '

variable {front back rest : List Char} {v : Value} {n : Nat} {values : List Value} {texts : List String}

theorem placeholdersIn_append (h : '$' ∉ front) :
    placeholdersIn (front ++ rest) = placeholdersIn rest := by
  induction front with
  | nil => rfl
  | cons c front ih =>
    rw [List.mem_cons, not_or] at h
    rw [List.cons_append, placeholdersIn, if_neg (Ne.symm h.1), ih h.2]

theorem placeholdersIn_of_not_mem (h : '$' ∉ rest) : placeholdersIn rest = [] := by
  rw [← List.append_nil rest, placeholdersIn_append h, placeholdersIn]

theorem closes_nil : Closes [] := by simp [Closes]

theorem Closes.castIn_eq (h : Closes rest) : castIn rest = none := by
  cases rest with
  | nil => rfl
  | cons c rest =>
    have hc := h c rfl
    unfold castIn
    split <;> simp_all

theorem Closes.takeWhile_eq (h : Closes rest) {p : Char → Bool}
    (hp : p ',' = false ∧ p ')' = false ∧ p ' ' = false) : rest.takeWhile p = [] := by
  cases rest with
  | nil => rfl
  | cons c rest =>
    have hc : p c = false := by
      obtain rfl | rfl | rfl := h c rfl
      · exact hp.1
      · exact hp.2.1
      · exact hp.2.2
    rw [List.takeWhile_cons, hc]
    rfl

theorem toList_placeholder : (placeholder v n).toList =
    '$' :: (Decimal.digits n ++ if v.isJson then "::jsonb".toList else []) := by
  have hcast : (if v.isJson then "::jsonb" else "").toList = if v.isJson then "::jsonb".toList else [] := by
    split <;> rfl
  rw [placeholder, String.toList_append, String.toList_append, Decimal.toList_text, hcast,
    List.append_assoc]
  rfl

/-- **A placeholder is read back** in front of what closes it. -/
theorem placeholdersIn_placeholder (h : Closes rest) :
    placeholdersIn ((placeholder v n).toList ++ rest) = v.placeholderAt n :: placeholdersIn rest := by
  set cast := if v.isJson then "::jsonb".toList else [] with hcast
  have hdollar : '$' ∉ Decimal.digits n ++ cast := by
    rw [List.mem_append, not_or]
    refine ⟨fun hmem => absurd (Decimal.isDigit_of_mem_digits hmem) (by decide), ?_⟩
    rw [hcast]
    split <;> decide
  have htake : (cast ++ rest).takeWhile Char.isDigit = [] := by
    rw [hcast]
    split
    · rfl
    · exact h.takeWhile_eq (by decide)
  have hname : ∀ c ∈ "jsonb".toList, c.isAlphanum = true := List.all_eq_true.1 rfl
  have hread : castIn (cast ++ rest) = if v.isJson then some "jsonb" else none := by
    rw [hcast]
    split
    · change some (String.ofList (("jsonb".toList ++ rest).takeWhile Char.isAlphanum)) = _
      rw [List.takeWhile_append_of_pos hname, h.takeWhile_eq (by decide)]
      rfl
    · exact h.castIn_eq
  have hdrop : (cast ++ rest).dropWhile Char.isDigit = cast ++ rest := by
    have := List.takeWhile_append_dropWhile (p := Char.isDigit) (l := cast ++ rest)
    rwa [htake, List.nil_append] at this
  rw [toList_placeholder, List.cons_append, placeholdersIn, if_pos rfl, placeholdersIn_append hdollar,
    List.append_assoc, List.takeWhile_append_of_pos fun _ => Decimal.isDigit_of_mem_digits, htake,
    List.append_nil, List.dropWhile_append_of_pos fun _ => Decimal.isDigit_of_mem_digits, hdrop, hread]
  rfl

/-! ## Numbered texts -/

/-- Texts that hold the placeholders of values from a position on, one each at its end. -/
inductive Numbered : Nat → List Value → List String → Prop
  | nil (n : Nat) : Numbered n [] []
  | cons {n : Nat} {v : Value} {values : List Value} {label : String} {texts : List String}
      (hlabel : '$' ∉ label.toList) (hrest : Numbered (n + 1) values texts) :
    Numbered n (v :: values) ((label ++ placeholder v n) :: texts)

/-- **Numbered texts are read back** with commas between them. -/
theorem placeholdersIn_intercalate (h : Numbered n values texts) (hrest : Closes rest) :
    placeholdersIn ((", ".intercalate texts).toList ++ rest) =
      placeholdersFrom n values ++ placeholdersIn rest := by
  induction h with
  | nil n => rfl
  | @cons n v values label texts hlabel htexts ih =>
    cases htexts with
    | nil =>
      rw [String.toList_intercalate, List.map_singleton, List.intercalate_singleton, String.toList_append,
        List.append_assoc, placeholdersIn_append hlabel, placeholdersIn_placeholder hrest]
      rfl
    | @cons _ v' values' label' texts' hlabel' htexts' =>
      rw [String.toList_intercalate] at ih ⊢
      rw [List.map_cons, List.map_cons, List.intercalate_cons_cons, ← List.map_cons,
        String.toList_append, List.append_assoc, List.append_assoc, List.append_assoc,
        placeholdersIn_append hlabel, placeholdersIn_placeholder (by simp [Closes]),
        placeholdersIn_append (by decide), ih]
      rfl

theorem placeholdersFrom_append_singleton : placeholdersFrom n (values ++ [v]) =
    placeholdersFrom n values ++ [v.placeholderAt (n + values.length)] := by
  simp [placeholdersFrom, List.zipIdx_append]

/-! ## Values that are numbered -/

/-- The placeholders of an inserted row. -/
theorem numbered_placeholders : Numbered n values (placeholders n values) := by
  induction values generalizing n with
  | nil => exact .nil n
  | cons v values ih =>
    have hcons : placeholders n (v :: values) = ("" ++ placeholder v n) :: placeholders (n + 1) values := by
      rw [String.empty_append]
      rfl
    rw [hcons]
    exact .cons (by decide) ih

theorem not_mem_label {column : String} (h : '$' ∉ column.toList) :
    '$' ∉ (quoteName column ++ " = ").toList := by
  simp [quoteName, String.toList_append, h]

namespace Binding

variable {b : Binding} {set : List Assignment}

/-- **What columns are bound to** goes behind what is bound, and the next position moves on with it. -/
theorem assignAll_eq : (b.assignAll set).2 =
    ⟨b.params ++ set.map fun a => a.value.param, b.next + set.length⟩ := by
  induction set generalizing b with
  | nil => simp [assignAll]
  | cons a set ih =>
    simp only [assignAll, ih, assign, bind, List.map_cons, List.length_cons, List.append_assoc,
      List.singleton_append, Nat.add_assoc, Nat.add_comm 1]

/-- The texts of columns hold the placeholders of their values, from the next position on. -/
theorem numbered_assignAll (h : ∀ a ∈ set, '$' ∉ a.column.toList) :
    Numbered b.next (set.map Assignment.value) (b.assignAll set).1 := by
  induction set generalizing b with
  | nil => exact .nil _
  | cons a set ih =>
    obtain ⟨ha, hset⟩ := List.forall_mem_cons.1 h
    exact .cons (not_mem_label ha) (ih (b := (b.assign a).2) hset)

end Binding

/-! ## Statements -/

theorem not_mem_intercalate (h : ∀ text ∈ texts, '$' ∉ text.toList) :
    '$' ∉ (", ".intercalate texts).toList := by
  rw [String.toList_intercalate]
  induction texts with
  | nil => simp
  | cons text texts ih =>
    obtain ⟨htext, htexts⟩ := List.forall_mem_cons.1 h
    cases texts with
    | nil => simpa using htext
    | cons text' texts =>
      rw [List.map_cons, List.map_cons, List.intercalate_cons_cons, ← List.map_cons, List.mem_append,
        List.mem_append, not_or, not_or]
      exact ⟨⟨htext, by decide⟩, ih htexts⟩

theorem not_mem_quoteNames {names : List String} (h : ∀ name ∈ names, '$' ∉ name.toList) :
    '$' ∉ (quoteNames names).toList := by
  refine not_mem_intercalate (List.forall_mem_map.2 fun name hname => ?_)
  simp [quoteName, String.toList_append, h name hname]

theorem not_mem_conflictText {updated : List String} (h : ∀ name ∈ updated, '$' ∉ name.toList) :
    '$' ∉ (conflictText updated).toList := by
  unfold conflictText
  split
  · decide
  · rw [String.toList_append, List.mem_append, not_or]
    refine ⟨by decide, not_mem_intercalate (List.forall_mem_map.2 fun name hname => ?_)⟩
    simp [quoteName, String.toList_append, h name hname]

section Statements

variable {table : String} {columns conflict updated : List String} {set : List Assignment}
  {condition : Assignment}

theorem placeholdersIn_upsert (htable : '$' ∉ table.toList) (hcolumns : ∀ c ∈ columns, '$' ∉ c.toList)
    (hconflict : ∀ c ∈ conflict, '$' ∉ c.toList) (hupdated : ∀ c ∈ updated, '$' ∉ c.toList) :
    placeholdersIn (upsertStatement table columns values conflict updated).text.toList =
      placeholdersFrom 1 values := by
  have hfront : '$' ∉ ("INSERT INTO " ++ table ++ " (" ++ quoteNames columns ++ ") VALUES (").toList := by
    simp [String.toList_append, htable, not_mem_quoteNames hcolumns]
  have hback : '$' ∉ (") ON CONFLICT (" ++ quoteNames conflict ++ ") " ++ conflictText updated).toList := by
    simp [String.toList_append, not_mem_quoteNames hconflict, not_mem_conflictText hupdated]
  have hcloses : Closes (") ON CONFLICT (" ++ quoteNames conflict ++ ") " ++ conflictText updated).toList := by
    simp [Closes, String.toList_append]
  have htext : (upsertStatement table columns values conflict updated).text.toList =
      ("INSERT INTO " ++ table ++ " (" ++ quoteNames columns ++ ") VALUES (").toList ++
        ((", ".intercalate (placeholders 1 values)).toList ++
          (") ON CONFLICT (" ++ quoteNames conflict ++ ") " ++ conflictText updated).toList) := by
    unfold upsertStatement
    simp only [String.toList_append, List.append_assoc]
  rw [htext, placeholdersIn_append hfront, placeholdersIn_intercalate numbered_placeholders hcloses,
    placeholdersIn_of_not_mem hback, List.append_nil]

/-- The condition of a write, behind a text without placeholders. -/
theorem placeholdersIn_assign {b : Binding} {label : String} (hlabel : '$' ∉ label.toList)
    (h : '$' ∉ condition.column.toList) :
    placeholdersIn (label ++ (b.assign condition).1).toList = [condition.value.placeholderAt b.next] := by
  have htext : (label ++ (b.assign condition).1).toList =
      label.toList ++ ((quoteName condition.column ++ " = ").toList ++
        ((placeholder condition.value b.next).toList ++ [])) := by
    unfold Binding.assign Binding.bind
    simp only [String.toList_append, List.append_assoc, List.append_nil]
  rw [htext, placeholdersIn_append hlabel, placeholdersIn_append (not_mem_label h),
    placeholdersIn_placeholder closes_nil]
  rfl

theorem placeholdersIn_update (htable : '$' ∉ table.toList) (hset : ∀ a ∈ set, '$' ∉ a.column.toList)
    (hcondition : '$' ∉ condition.column.toList) :
    placeholdersIn (updateStatement table set condition).text.toList =
      placeholdersFrom 1 (set.map Assignment.value ++ [condition.value]) := by
  have hnumbered := Binding.numbered_assignAll (b := {}) hset
  set assigned := Binding.assignAll {} set with hassigned
  have hnext : assigned.2.next = 1 + set.length := by rw [hassigned, Binding.assignAll_eq]
  have hfront : '$' ∉ ("UPDATE " ++ table ++ " SET ").toList := by
    simp [String.toList_append, htable]
  have hcloses : Closes (" WHERE " ++ (assigned.2.assign condition).1).toList := by
    simp [Closes, String.toList_append]
  have htext : (updateStatement table set condition).text.toList =
      ("UPDATE " ++ table ++ " SET ").toList ++ ((", ".intercalate assigned.1).toList ++
        (" WHERE " ++ (assigned.2.assign condition).1).toList) := by
    unfold updateStatement
    simp only [String.toList_append, List.append_assoc]
    rfl
  rw [htext, placeholdersIn_append hfront, placeholdersIn_intercalate hnumbered hcloses,
    placeholdersIn_assign (by decide) hcondition, hnext, placeholdersFrom_append_singleton,
    List.length_map]

theorem placeholdersIn_delete (htable : '$' ∉ table.toList) (hcondition : '$' ∉ condition.column.toList) :
    placeholdersIn (deleteStatement table condition).text.toList = placeholdersFrom 1 [condition.value] := by
  refine placeholdersIn_assign ?_ hcondition
  simp [String.toList_append, htable]

end Statements

namespace Operation

variable {op : Operation}

/-- **The parameters of a statement** are bound in place of the values of the write, in their order. -/
theorem params_statement (op : Operation) : op.statement.params = op.values.map Value.param := by
  cases op with
  | upsert => rfl
  | update table set condition =>
    change (Binding.assignAll {} set).2.params ++ [condition.value.param] = _
    rw [Binding.assignAll_eq, values, List.map_append, List.map_map]
    rfl
  | delete => rfl

/-- **The placeholders of a statement** are those of the values of the write, in their order. -/
theorem placeholdersIn_statement (h : ∀ name ∈ op.names, '$' ∉ name.toList) :
    placeholdersIn op.statement.text.toList = placeholdersFrom 1 op.values := by
  cases op with
  | upsert table columns values conflict updated =>
    simp only [names, List.forall_mem_cons, List.forall_mem_append] at h
    exact placeholdersIn_upsert h.1 h.2.1.1 h.2.1.2 h.2.2
  | update table set condition =>
    simp only [names, List.forall_mem_cons, List.forall_mem_append, List.forall_mem_map] at h
    exact placeholdersIn_update h.1 h.2.1 h.2.2.1
  | delete table condition =>
    simp only [names, List.forall_mem_cons] at h
    exact placeholdersIn_delete h.1 h.2.1

end Operation

/-- Positions are used once. -/
theorem nodup_position_placeholdersFrom :
    ((placeholdersFrom n values).map Placeholder.position).Nodup := by
  have hpositions : (placeholdersFrom n values).map Placeholder.position =
      ((values.zipIdx n).map Prod.snd).map Decimal.text := by
    rw [placeholdersFrom, List.map_map, List.map_map]
    rfl
  rw [hpositions, List.zipIdx_map_snd]
  exact List.Nodup.map Decimal.text_injective List.nodup_range'

/-- **Placeholders and parameters match.** There are as many of either as values. Read from left to right
the placeholders are `$1`, `$2`, …, each once, those of JSON values with a cast to `jsonb` and the others
without one, and the parameter at each position is bound in place of the value there. -/
theorem placeholders_match_parameters (op : Operation) (h : ∀ name ∈ op.names, '$' ∉ name.toList) :
    let held := placeholdersIn op.statement.text.toList
    op.statement.params.length = op.values.length ∧ held.length = op.values.length ∧
      (held.map Placeholder.position).Nodup ∧
      ∀ (i : Nat) (v : Value), op.values[i]? = some v → op.statement.params[i]? = some v.param ∧
        held[i]? = some ⟨Decimal.text (i + 1), if v.isJson then some "jsonb" else none⟩ := by
  intro held
  have hheld : held = placeholdersFrom 1 op.values := Operation.placeholdersIn_statement h
  rw [hheld, Operation.params_statement]
  refine ⟨List.length_map _, by simp [placeholdersFrom], nodup_position_placeholdersFrom, ?_⟩
  intro i v hv
  refine ⟨by simp [hv], ?_⟩
  simp [placeholdersFrom, List.getElem?_zipIdx, hv, Value.placeholderAt, Nat.add_comm]

/-- Two columns are set, one of them to a JSON value, where a third one has a value. -/
def sampleUpdate : Operation :=
  .update "storage_values" [⟨"name", .text "balance"⟩, ⟨"value", .json .null⟩] ⟨"id", .int64 3⟩

theorem placeholders_match_parameters_update :
    (∀ name ∈ sampleUpdate.names, '$' ∉ name.toList) ∧
      sampleUpdate.statement.params[1]? = some (.json .null) ∧
      (placeholdersIn sampleUpdate.statement.text.toList)[1]? = some ⟨"2", some "jsonb"⟩ := by
  have hnames : ∀ name ∈ sampleUpdate.names, '$' ∉ name.toList := by decide
  have htext : Decimal.text 2 = "2" := by
    rw [Decimal.text, Decimal.digits]
    rfl
  have hmatch := (placeholders_match_parameters sampleUpdate hnames).2.2.2 1 (.json .null) rfl
  rw [htext] at hmatch
  exact ⟨hnames, hmatch.1, hmatch.2⟩

end SlotIndex.Sql
