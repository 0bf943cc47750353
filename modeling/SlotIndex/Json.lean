import SlotIndex.Text.Decimal
import SlotIndex.Text.Hex

/-!
# JSON

The values of JSON texts, and the text of a value. Numbers keep their spelling and objects keep all
their members in order, so that what a field accepts is decided by its reader.

* `Json`: the values.
* `Json.render`: the compact text of a value.
-/

namespace SlotIndex

/-- The characters of a JSON string. There are none if one of its escapes is half of a surrogate
pair. -/
abbrev JsonString := Option String

/-- A JSON value. -/
inductive Json where
  | null
  | bool (b : Bool)
  /-- A number, as it is spelt. -/
  | number (spelling : String)
  | string (text : JsonString)
  | array (items : List Json)
  | object (members : List (JsonString × Json))
deriving Inhabited

namespace Json

/-- A string without broken escapes. -/
def ofString (s : String) : Json := .string (some s)

/-- An object from names and values. -/
def ofMembers (members : List (String × Json)) : Json :=
  .object (members.map fun m => (some m.1, m.2))

/-- A number in decimal. -/
def ofInt (n : Int) : Json := .number (Decimal.signed n)

/-- The text of a character inside a string. -/
def escape (c : Char) : List Char :=
  match c.toNat with
  | 0x22 => ['\\', '"']
  | 0x5C => ['\\', '\\']
  | 0x08 => ['\\', 'b']
  | 0x0C => ['\\', 'f']
  | 0x0A => ['\\', 'n']
  | 0x0D => ['\\', 'r']
  | 0x09 => ['\\', 't']
  | n => if n < 0x20 then '\\' :: 'u' :: '0' :: '0' :: Hex.encode [UInt8.ofNat n] else [c]

/-- The text of a string. -/
def quote (s : String) : List Char :=
  '"' :: (s.toList.flatMap escape ++ ['"'])

/-- Texts with commas between them. -/
def separate : List (List Char) → List Char
  | [] => []
  | [t] => t
  | t :: rest => t ++ ',' :: separate rest

mutual

/-- The compact characters of a value. -/
def chars : Json → List Char
  | .null => ['n', 'u', 'l', 'l']
  | .bool true => ['t', 'r', 'u', 'e']
  | .bool false => ['f', 'a', 'l', 's', 'e']
  | .number spelling => spelling.toList
  | .string text => quote (text.getD "")
  | .array items => '[' :: (separate (itemTexts items) ++ [']'])
  | .object members => '{' :: (separate (memberTexts members) ++ ['}'])

/-- The texts of the items of an array. -/
def itemTexts : List Json → List (List Char)
  | [] => []
  | j :: rest => chars j :: itemTexts rest

/-- The texts of the members of an object. -/
def memberTexts : List (JsonString × Json) → List (List Char)
  | [] => []
  | (name, j) :: rest => (quote (name.getD "") ++ ':' :: chars j) :: memberTexts rest

end

/-- The compact text of a value. -/
def render (j : Json) : String := String.ofList j.chars

end Json

end SlotIndex
