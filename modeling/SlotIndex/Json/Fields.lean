import SlotIndex.Json.Parse
import SlotIndex.Json.Magnitude
import SlotIndex.Word.Text

/-!
# Typed fields of JSON values

What a field of a configuration accepts. A reader of this module yields nothing when the value has
the wrong shape; which part of it is wrong is not reported.

* `text?`, `nat?`, `list?`, `optional?`: strings, plain numbers below a limit, lists, values that may
  be null.
* `record?`: the fields of a record, which is an object or the list of its fields in order.
* `bytes?`, `address?`: bytes and addresses.
* `isPlainData`: values that can be read before it is known what they are to be.
-/

namespace SlotIndex.Json

/-- A string. -/
def text? : Json → Option String
  | .string text => text
  | _ => none

/-- A plain number below a limit: digits alone. -/
def nat? (limit : Nat) : Json → Option Nat
  | .number spelling =>
    let cs := spelling.toList
    if cs.all Char.isDigit ∧ Magnitude.ofDigits cs < limit then some (Magnitude.ofDigits cs)
    else none
  | _ => none

/-- A plain number below `2 ^ 64`. -/
def uint64? (j : Json) : Option UInt64 := (j.nat? UInt64.size).map UInt64.ofNat

/-- A list of values of one kind. -/
def list? {α : Type} (item : Json → Option α) : Json → Option (List α)
  | .array items => items.mapM item
  | _ => none

/-- A value that may be null. -/
def optional? {α : Type} (value : Json → Option α) : Json → Option (Option α)
  | .null => some none
  | j => (value j).map some

/-- The fields with the given names, each of which may be missing. An object may hold other members,
but none of these twice; a list holds the fields in order and no more. -/
def record? (names : List String) : Json → Option (List (Option Json))
  | .array items =>
    if items.length ≤ names.length then
      some (items.map some ++ List.replicate (names.length - items.length) none)
    else none
  | .object members =>
    if members.all (fun m => m.1.isSome) then
      names.mapM fun name =>
        match members.filter (fun m => m.1 = some name) with
        | [] => some none
        | [m] => some (some m.2)
        | _ => none
    else none
  | _ => none

/-- A field that must be there. -/
def required? {α : Type} (value : Json → Option α) (field : Option Json) : Option α :=
  field.bind value

/-- A field with a default. -/
def orElse? {α : Type} (default : α) (value : Json → Option α) : Option Json → Option α
  | none => some default
  | some j => value j

/-- The members of an object, whose names must be sound. -/
def members? : Json → Option (List (String × Json))
  | .object members => members.mapM fun m => m.1.map fun name => (name, m.2)
  | _ => none

/-- Bytes, as hexadecimal text or as a list of numbers. -/
def bytes? : Json → Option (List UInt8)
  | .string text => text.bind fun t => (Hex.decode t.toList).toOption
  | .array items => items.mapM fun j => (j.nat? 256).map UInt8.ofNat
  | _ => none

/-- The first bytes of a list that holds exactly `n` of them, in front of at most one other item. -/
def bytesOf? (n : Nat) (items : List Json) : Option (List UInt8) :=
  let (front, behind) := items.splitAt n
  if front.length = n ∧ behind.length ≤ 1 ∧ behind.all (fun j => (j.nat? 256).isNone) then
    bytes? (.array front)
  else none

/-- An address, as 40 digits or as a list of 20 bytes. One other item may follow in the list. -/
def address? : Json → Option Address
  | .string text => text.bind fun t => (Address.parse t).toOption
  | .array items => (bytesOf? 20 items).map Address.ofBytes
  | _ => none

mutual

/-- Values that can be read before it is known what they are to be: all strings are sound, all
numbers finite, and lists and objects are nested at most `levels` deep. -/
def isPlainData : (levels : Nat) → Json → Bool
  | _, .null => true
  | _, .bool _ => true
  | _, .number spelling => Magnitude.isFinite spelling
  | _, .string text => text.isSome
  | 0, .array _ => false
  | levels + 1, .array items => arePlainItems levels items
  | 0, .object _ => false
  | levels + 1, .object members => arePlainMembers levels members

/-- The items of a list of plain data. -/
def arePlainItems : (levels : Nat) → List Json → Bool
  | _, [] => true
  | levels, j :: rest => isPlainData levels j && arePlainItems levels rest

/-- The members of an object of plain data. -/
def arePlainMembers : (levels : Nat) → List (JsonString × Json) → Bool
  | _, [] => true
  | levels, (name, j) :: rest =>
    name.isSome && isPlainData levels j && arePlainMembers levels rest

end

end SlotIndex.Json
