import SlotIndex.Json
import SlotIndex.Word

/-!
# SQL statements

Writes to a table as statements with placeholders `$1`, `$2`, …, one for each value in order. The
placeholder of a JSON value carries a cast. Nothing is escaped inside quoted names.

The values of an inserted row are numbered and bound as a whole. Those of other writes are bound one by
one: each takes the next position, and what is bound in its place goes behind what is bound so far.

* `Sql.Value`, `Sql.Param`: values, and what is bound in their place.
* `Sql.Binding`: what is bound so far.
* `Sql.Operation`, `Sql.Operation.statement`.
-/

namespace SlotIndex.Sql

/-- A value of a column. -/
inductive Value where
  | null
  | bool (b : Bool)
  /-- A signed 64-bit number. -/
  | int64 (n : Int)
  | uint64 (n : UInt64)
  | text (s : String)
  | word (w : Word)
  | json (j : Json)

/-- What is bound to a placeholder. -/
inductive Param where
  | null
  | bool (b : Bool)
  | int64 (n : Int)
  | text (s : String)
  | bytes (bytes : List UInt8)
  | json (j : Json)

/-- What is bound in place of a value. Columns hold signed numbers, so an unsigned one is bound as the
signed number with the same bits. -/
def Value.param : Value → Param
  | .null => .null
  | .bool b => .bool b
  | .int64 n => .int64 n
  | .uint64 n => .int64 ((n.toNat : Int).bmod UInt64.size)
  | .text s => .text s
  | .word w => .bytes w.bytes
  | .json j => .json j

/-- Whether a value is bound with a cast. -/
def Value.isJson : Value → Bool
  | .json _ => true
  | _ => false

/-- The placeholder of a value at a position. -/
def placeholder (v : Value) (position : Nat) : String :=
  "$" ++ Decimal.text position ++ if v.isJson then "::jsonb" else ""

/-- The placeholders of values from a position on. -/
def placeholders : (position : Nat) → List Value → List String
  | _, [] => []
  | n, v :: rest => placeholder v n :: placeholders (n + 1) rest

/-- A column name between double quotes. -/
def quoteName (name : String) : String := "\"" ++ name ++ "\""

/-- Column names with commas between them. -/
def quoteNames (names : List String) : String :=
  ", ".intercalate (names.map quoteName)

/-- A column and the value that it has, or is to get. -/
structure Assignment where
  column : String
  value : Value

/-- A write to a table. -/
inductive Operation where
  /-- A row is inserted; where it conflicts, some columns are updated, or nothing is done. -/
  | upsert (table : String) (columns : List String) (values : List Value)
      (conflict update : List String)
  | update (table : String) (set : List Assignment) (condition : Assignment)
  | delete (table : String) (condition : Assignment)

/-- What is bound so far, and the position of the next placeholder. -/
structure Binding where
  params : List Param := []
  next : Nat := 1

namespace Binding

/-- Bind a value; its placeholder has the next position. -/
def bind (b : Binding) (v : Value) : String × Binding :=
  (placeholder v b.next, ⟨b.params ++ [v.param], b.next + 1⟩)

/-- Bind the value of a column: the column with the placeholder. -/
def assign (b : Binding) (a : Assignment) : String × Binding :=
  let held := b.bind a.value
  (quoteName a.column ++ " = " ++ held.1, held.2)

/-- Bind the values of columns, one after the other. -/
def assignAll (b : Binding) : List Assignment → List String × Binding
  | [] => ([], b)
  | a :: rest =>
    let first := b.assign a
    let others := first.2.assignAll rest
    (first.1 :: others.1, others.2)

end Binding

/-- A statement and what is bound to its placeholders. -/
structure Statement where
  text : String
  params : List Param

/-- What is done where a row conflicts. -/
def conflictText (updated : List String) : String :=
  if updated = [] then "DO NOTHING"
  else
    "DO UPDATE SET "
      ++ ", ".intercalate (updated.map fun c => quoteName c ++ " = EXCLUDED." ++ quoteName c)

/-- The statement that inserts a row. -/
def upsertStatement (table : String) (columns : List String) (values : List Value)
    (conflict updated : List String) : Statement where
  text := "INSERT INTO " ++ table ++ " (" ++ quoteNames columns ++ ") VALUES ("
    ++ ", ".intercalate (placeholders 1 values) ++ ") ON CONFLICT (" ++ quoteNames conflict ++ ") "
    ++ conflictText updated
  params := values.map Value.param

/-- The statement that sets columns of the rows that meet a condition. The columns are bound first. -/
def updateStatement (table : String) (set : List Assignment) (condition : Assignment) : Statement :=
  let assigned := Binding.assignAll {} set
  let selected := assigned.2.assign condition
  { text := "UPDATE " ++ table ++ " SET " ++ ", ".intercalate assigned.1 ++ " WHERE " ++ selected.1
    params := selected.2.params }

/-- The statement that removes the rows that meet a condition. -/
def deleteStatement (table : String) (condition : Assignment) : Statement :=
  let selected := Binding.assign {} condition
  { text := "DELETE FROM " ++ table ++ " WHERE " ++ selected.1
    params := selected.2.params }

/-- The statement of a write. -/
def Operation.statement : Operation → Statement
  | .upsert table columns values conflict updated =>
    upsertStatement table columns values conflict updated
  | .update table set condition => updateStatement table set condition
  | .delete table condition => deleteStatement table condition

end SlotIndex.Sql
