import SlotIndex.Json.Fields

/-!
# Lists of a fixed number of bytes

A reader of lists that hold a fixed number of bytes. It takes these and looks for one byte more,
which must not be there. It does not ask what else stands in its place: the list is sound if its end
follows where the search for a byte stops, even if the item is no JSON.

* `dropOctets`, `wordStop`, `numberStop`, `stringStop`, `itemStop`: where the search stops.
* `closeAt`: the end of a list behind its last byte.
* `bytesAt`: the reader.
-/

namespace SlotIndex.Json

/-- The text behind a number of octets. Nothing is behind a part of a character. -/
def dropOctets : Nat → List Char → List Char
  | 0, cs => cs
  | _, [] => []
  | n, c :: rest => if c.utf8Size ≤ n then dropOctets (n - c.utf8Size) rest else []

/-- The text behind a word, or behind the first octet that is not of the word. -/
def wordStop : (word : List Char) → List Char → List Char
  | [], cs => cs
  | _, [] => []
  | e :: word, c :: rest => if c = e then wordStop word rest else dropOctets 1 (c :: rest)

/-! ## Numbers -/

/-- The text behind the digits of an exponent, or behind the digit that makes it too large. -/
def exponentStop : (exponent : Nat) → List Char → List Char
  | _, [] => []
  | e, c :: rest =>
    if c.isDigit then
      let e := 10 * e + (c.toNat - 48)
      if Magnitude.maxExponent < e then rest else exponentStop e rest
    else c :: rest

/-- The text behind an exponent, if there is one, or behind what stands in place of its first digit.
Exponents may be of any size if they are negative or the digits in front of them are zeros. -/
def scaleStop (digits : List Char) : List Char → List Char
  | [] => []
  | c :: rest =>
    if c = 'e' ∨ c = 'E' then
      let signed := rest.head? = some '+' ∨ rest.head? = some '-'
      let anySize := rest.head? = some '-' ∨ digits.all (· = '0')
      let ds := if signed then rest.tail else rest
      if (ds.head?.map Char.isDigit).getD false then
        if anySize then ds.dropWhile Char.isDigit else exponentStop 0 ds
      else dropOctets 1 ds
    else c :: rest

/-- The text behind a number without its sign, or behind the part of it that is none. -/
def numberStop (cs : List Char) : List Char :=
  match cs.takeWhile Char.isDigit, cs.dropWhile Char.isDigit with
  | [], _ => dropOctets 1 cs
  | '0' :: d :: ds, rest => d :: ds ++ rest
  | whole, '.' :: rest =>
    match rest.takeWhile Char.isDigit with
    | [] => rest
    | fraction => scaleStop (whole ++ fraction) (rest.dropWhile Char.isDigit)
  | whole, rest => scaleStop whole rest

/-! ## Strings -/

/-- The text behind a string, or behind what must not stand in it. The text begins behind the
opening quote. -/
def stringStop : List Char → List Char
  | [] => []
  | '"' :: rest => rest
  | '\\' :: 'u' :: a :: b :: c :: d :: rest =>
    match hex4 a b c d with
    | none => dropOctets 4 (a :: b :: c :: d :: rest)
    | some n =>
      if isLowHalf n then rest
      else if isHighHalf n then
        match rest with
        | '\\' :: 'u' :: e :: f :: g :: h :: rest =>
          match hex4 e f g h with
          | none => dropOctets 4 (e :: f :: g :: h :: rest)
          | some m => if isLowHalf m then stringStop rest else rest
        | '\\' :: 'u' :: rest => dropOctets 4 rest
        | '\\' :: rest => dropOctets 1 rest
        | rest => dropOctets 1 rest
      else stringStop rest
  | '\\' :: c :: rest =>
    match letterEscape? c with
    | none => if c = 'u' then dropOctets 4 rest else dropOctets 1 (c :: rest)
    | some _ => stringStop rest
  | c :: rest => if c.toNat < 0x20 then rest else stringStop rest

/-! ## Lists -/

/-- The text behind an item, or behind what must not stand in it. Lists and objects are not
entered. -/
def itemStop : List Char → List Char
  | 'n' :: rest => wordStop ['u', 'l', 'l'] rest
  | 't' :: rest => wordStop ['r', 'u', 'e'] rest
  | 'f' :: rest => wordStop ['a', 'l', 's', 'e'] rest
  | '"' :: rest => stringStop rest
  | '-' :: rest => numberStop rest
  | c :: rest => if c.isDigit then numberStop (c :: rest) else c :: rest
  | [] => []

/-- Whether a byte stands at the front. -/
def startsWithByte (cs : List Char) : Bool :=
  match numberAt cs with
  | some (spelling, _) => ((Json.number (String.ofList spelling)).nat? 256).isSome
  | none => false

/-- The text behind the closing bracket of a list whose last byte stands in front. -/
def closeAt (cs : List Char) : Option (List Char) :=
  let rest :=
    match skipGap cs with
    | ',' :: rest =>
      let rest := skipGap rest
      if startsWithByte rest then [] else itemStop rest
    | rest => rest
  match skipGap rest with
  | ']' :: rest => some rest
  | _ => none

/-- The items of a list that may hold a number of bytes more. -/
def byteItemsAt (steps : Nat) : (more : Nat) → Reader (List Json)
  | 0, cs => (closeAt cs).map fun rest => ([], rest)
  | more + 1, cs =>
    match valueAt steps cs with
    | none => none
    | some (j, rest) =>
      if more = 0 then (closeAt rest).map fun rest => ([j], rest)
      else
        match skipGap rest with
        | ']' :: rest => some ([j], rest)
        | ',' :: rest => (byteItemsAt steps more rest).map fun r => (j :: r.1, r.2)
        | _ => none

/-- The value at the front, which may be a list of `n` bytes. -/
def bytesAt (n steps : Nat) : Reader Json := fun cs =>
  match skipGap cs with
  | '[' :: rest =>
    match skipGap rest with
    | ']' :: rest => some (.array [], rest)
    | _ => (byteItemsAt steps n rest).map fun r => (.array r.1, r.2)
  | cs => valueAt steps cs

end SlotIndex.Json
