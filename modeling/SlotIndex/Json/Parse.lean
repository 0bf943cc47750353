import SlotIndex.Json

/-!
# Reading JSON

A strict reader of JSON texts: nothing but blanks may surround the value, numbers have no leading
zeros, strings hold no control characters.

* `Json.parse`: the value of a text.
* `Json.valueAt`: the reader of a value. It takes a number of steps that bounds the nesting of its
  calls.
* `Json.valueWith`, `Json.parseWith`: the same with readers of one's own for items and members.
-/

namespace SlotIndex.Json

/-- The characters that may stand between tokens. -/
def isGap (c : Char) : Bool :=
  c = ' ' || c = '\n' || c = '\t' || c = '\r'

/-- A text without the gap at its front. -/
def skipGap (cs : List Char) : List Char := cs.dropWhile isGap

/-! ## Numbers -/

/-- Digits at the front and the rest; there must be at least one. -/
def digitsAt (cs : List Char) : Option (List Char × List Char) :=
  match cs.takeWhile Char.isDigit with
  | [] => none
  | ds => some (ds, cs.dropWhile Char.isDigit)

/-- The whole part of a number: zero alone, or digits that do not begin with zero. -/
def wholeAt : List Char → Option (List Char × List Char)
  | '0' :: rest => some (['0'], rest)
  | cs => digitsAt cs

/-- The fraction of a number, if there is one. -/
def fractionAt : List Char → Option (List Char × List Char)
  | '.' :: rest => (digitsAt rest).map fun r => ('.' :: r.1, r.2)
  | cs => some ([], cs)

/-- The exponent of a number, if there is one. -/
def exponentAt : List Char → Option (List Char × List Char)
  | c :: rest =>
    if c = 'e' ∨ c = 'E' then
      match rest with
      | s :: tail =>
        if s = '+' ∨ s = '-' then (digitsAt tail).map fun r => (c :: s :: r.1, r.2)
        else (digitsAt (s :: tail)).map fun r => (c :: r.1, r.2)
      | [] => none
    else some ([], c :: rest)
  | [] => some ([], [])

/-- A number without its sign. -/
def unsignedAt (cs : List Char) : Option (List Char × List Char) :=
  match wholeAt cs with
  | none => none
  | some (whole, cs) =>
    match fractionAt cs with
    | none => none
    | some (fraction, cs) =>
      (exponentAt cs).map fun r => (whole ++ fraction ++ r.1, r.2)

/-- The spelling of a number and the rest. -/
def numberAt : List Char → Option (List Char × List Char)
  | '-' :: rest => (unsignedAt rest).map fun r => ('-' :: r.1, r.2)
  | cs => unsignedAt cs

/-! ## Strings -/

/-- The value of four hexadecimal digits. -/
def hex4 (a b c d : Char) : Option Nat :=
  match value? a, value? b, value? c, value? d with
  | some a, some b, some c, some d => some (4096 * a + 256 * b + 16 * c + d)
  | _, _, _, _ => none
where
  /-- The value of one digit. -/
  value? (c : Char) : Option Nat :=
    if c.toNat < 128 then Hex.value? (UInt8.ofNat c.toNat) else none

/-- The character of a one-letter escape. -/
def letterEscape? : Char → Option Char
  | '"' => some '"'
  | '\\' => some '\\'
  | '/' => some '/'
  | 'b' => some (Char.ofNat 0x08)
  | 'f' => some (Char.ofNat 0x0C)
  | 'n' => some '\n'
  | 'r' => some '\r'
  | 't' => some '\t'
  | _ => none

/-- Codes that are halves of a pair and no characters. -/
def isHighHalf (n : Nat) : Bool := 0xD800 ≤ n && n ≤ 0xDBFF

/-- Codes that are halves of a pair and no characters. -/
def isLowHalf (n : Nat) : Bool := 0xDC00 ≤ n && n ≤ 0xDFFF

/-- What a string is spelt with. -/
inductive StringPart where
  | char (c : Char)
  /-- An escape with four hexadecimal digits. -/
  | code (n : Nat)
deriving DecidableEq

/-- The parts of a string up to its closing quote, and the text behind it. -/
def partsAt : List Char → Option (List StringPart × List Char)
  | [] => none
  | '"' :: rest => some ([], rest)
  | '\\' :: 'u' :: a :: b :: c :: d :: rest =>
    match hex4 a b c d with
    | none => none
    | some n => (partsAt rest).map fun r => (.code n :: r.1, r.2)
  | '\\' :: c :: rest =>
    match letterEscape? c with
    | none => none
    | some c => (partsAt rest).map fun r => (.char c :: r.1, r.2)
  | c :: rest =>
    if c.toNat < 0x20 ∨ c = '\\' then none
    else (partsAt rest).map fun r => (.char c :: r.1, r.2)

/-- The characters of a string: two codes that are the halves of a pair are one character, a half
that stands alone is none. -/
def joinParts : List StringPart → Option (List Char)
  | [] => some []
  | .char c :: rest => (joinParts rest).map (c :: ·)
  | .code n :: tail =>
    if isHighHalf n then
      match tail with
      | .code m :: rest =>
        if isLowHalf m then
          (joinParts rest).map
            (Char.ofNat (0x10000 + 1024 * (n - 0xD800) + (m - 0xDC00)) :: ·)
        else none
      | _ => none
    else if isLowHalf n then none
    else (joinParts tail).map (Char.ofNat n :: ·)

/-- A string and the text behind it. -/
def stringTokenAt (cs : List Char) : Option (JsonString × List Char) :=
  (partsAt cs).map fun r => ((joinParts r.1).map String.ofList, r.2)

/-! ## Values -/

/-- A reader yields what stands at the front of a text, with the characters behind it. -/
abbrev Reader (α : Type) := List Char → Option (α × List Char)

/-- The items of an array up to its closing bracket. The first has the given index; each is read by
the reader for its index. -/
def itemsWith (item : Nat → Reader Json) : (steps index : Nat) → Reader (List Json)
  | 0, _, _ => none
  | steps + 1, index, cs =>
    match item index cs with
    | none => none
    | some (j, rest) =>
      match skipGap rest with
      | ']' :: rest => some ([j], rest)
      | ',' :: rest => (itemsWith item steps (index + 1) rest).map fun r => (j :: r.1, r.2)
      | _ => none

/-- The members of an object up to its closing brace, each read by the reader for its name. -/
def membersWith (member : JsonString → Reader Json) :
    (steps : Nat) → Reader (List (JsonString × Json))
  | 0, _ => none
  | steps + 1, cs =>
    match skipGap cs with
    | '"' :: rest =>
      match stringTokenAt rest with
      | none => none
      | some (name, rest) =>
        match skipGap rest with
        | ':' :: rest =>
          match member name rest with
          | none => none
          | some (j, rest) =>
            match skipGap rest with
            | '}' :: rest => some ([(name, j)], rest)
            | ',' :: rest => (membersWith member steps rest).map fun r => ((name, j) :: r.1, r.2)
            | _ => none
        | _ => none
    | _ => none

/-- The value at the front, whose items and members are read by the given readers. -/
def valueWith (item : Nat → Reader Json) (member : JsonString → Reader Json) (steps : Nat) :
    Reader Json := fun cs =>
  match skipGap cs with
  | 'n' :: 'u' :: 'l' :: 'l' :: rest => some (.null, rest)
  | 't' :: 'r' :: 'u' :: 'e' :: rest => some (.bool true, rest)
  | 'f' :: 'a' :: 'l' :: 's' :: 'e' :: rest => some (.bool false, rest)
  | '"' :: rest => (stringTokenAt rest).map fun r => (.string r.1, r.2)
  | '[' :: rest =>
    match skipGap rest with
    | ']' :: rest => some (.array [], rest)
    | _ => (itemsWith item steps 0 rest).map fun r => (.array r.1, r.2)
  | '{' :: rest =>
    match skipGap rest with
    | '}' :: rest => some (.object [], rest)
    | _ => (membersWith member steps rest).map fun r => (.object r.1, r.2)
  | cs => (numberAt cs).map fun r => (.number (String.ofList r.1), r.2)

/-- The value at the front. -/
def valueAt : (steps : Nat) → Reader Json
  | 0 => fun _ => none
  | steps + 1 => valueWith (fun _ => valueAt steps) (fun _ => valueAt steps) steps

/-- The value of a text that a reader finds in it. -/
def parseWith (value : (steps : Nat) → Reader Json) (text : String) : Option Json :=
  let cs := text.toList
  match value (cs.length + 1) cs with
  | none => none
  | some (j, rest) => if skipGap rest = [] then some j else none

/-- The value of a text. -/
def parse (text : String) : Option Json := parseWith valueAt text

end SlotIndex.Json
