import SlotIndex.Table
import SlotIndex.Text.Alphanumeric
import SlotIndex.Text.Blank
import SlotIndex.Text.Decimal
import SlotIndex.Text.Utf8

/-!
# Files of environment variables

A file of lines `NAME=value`. A value may stand between quotes, which may span lines; `$NAME` and
`$NAME` in braces stand for the value of a variable; a number sign behind a blank begins a comment.

* `logicalLines`: the lines of a file, with quoted values put together.
* `readLine`: the assignment of a line.
-/

namespace SlotIndex.Environment

/-- Why a line is no assignment: the faulty text and the place in it. -/
structure LineFault where
  text : List Char
  index : Nat
deriving DecidableEq

/-- Why a file cannot be read to its end. -/
inductive LoadFault where
  | line (fault : LineFault)
  /-- A line is no text. -/
  | notText
deriving DecidableEq

/-- The wording of a fault. -/
def LoadFault.message : LoadFault → String
  | .line f =>
    s!"Error parsing line: '{String.ofList f.text}', error at line index: {Decimal.text f.index}"
  | .notText => "stream did not contain valid UTF-8"

/-! ## Lines -/

/-- Where a logical line stands at the end of a line of the file. -/
inductive LineState where
  | complete
  | escape
  | strongOpen
  | strongEscape
  | weakOpen
  | weakEscape
  | blank
  | comment
deriving DecidableEq

/-- The state behind a character. -/
def LineState.next (s : LineState) (c : Char) : LineState :=
  match s with
  | .blank =>
    if c = '#' then .comment
    else if c = '\\' then .escape
    else if c = '"' then .weakOpen
    else if c.toNat = 39 then .strongOpen
    else .complete
  | .escape => .complete
  | .complete =>
    if Text.isBlank c ∧ c ≠ '\n' ∧ c ≠ '\r' then .blank
    else if c = '\\' then .escape
    else if c = '"' then .weakOpen
    else if c.toNat = 39 then .strongOpen
    else .complete
  | .weakOpen => if c = '\\' then .weakEscape else if c = '"' then .complete else .weakOpen
  | .weakEscape => .weakOpen
  | .strongOpen =>
    if c = '\\' then .strongEscape else if c.toNat = 39 then .complete else .strongOpen
  | .strongEscape => .strongOpen
  | .comment => .comment

/-- The characters in front of a comment, and the state behind them. -/
def scanLine : LineState → List Char → List Char × LineState
  | s, [] => ([], s)
  | s, c :: rest =>
    match s.next c with
    | .comment => ([], .comment)
    | t => let r := scanLine t rest; (c :: r.1, r.2)

/-- The lines of a file, each with its newline. -/
def physicalLines : List UInt8 → List (List UInt8)
  | [] => []
  | b :: rest =>
    if b = 10 then [b] :: physicalLines rest
    else
      match physicalLines rest with
      | [] => [[b]]
      | line :: lines => (b :: line) :: lines

/-- A line without its newline. -/
def dropNewline (line : List Char) : List Char :=
  match line.reverse with
  | '\n' :: '\r' :: rest => rest.reverse
  | '\n' :: rest => rest.reverse
  | _ => line

/-- The logical lines, behind the begun part of one. A part that is never finished is a fault that
ends them, and so is a line that is no text. -/
def joinLines : (begun : List Char) → LineState → List (Option (List Char)) →
    List (Except LoadFault (List Char))
  | begun, s, [] =>
    if s = .complete then [] else [.error (.line ⟨begun, (Utf8.encode begun).length⟩)]
  | _, _, none :: _ => [.error .notText]
  | begun, s, some line :: rest =>
    if ((begun ++ line).dropWhile Text.isBlank).head? = some '#' then
      .ok [] :: joinLines [] .complete rest
    else
      match scanLine s line with
      | (_, .complete) => .ok (dropNewline (begun ++ line)) :: joinLines [] .complete rest
      | (front, .comment) => .ok (begun ++ front) :: joinLines [] .complete rest
      | (_, t) => joinLines (begun ++ line) t rest

/-- The logical lines of a file. A byte order mark at its front does not count. -/
def logicalLines (file : List UInt8) : List (Except LoadFault (List Char)) :=
  let octets :=
    match file with
    | 0xEF :: 0xBB :: 0xBF :: rest => rest
    | octets => octets
  joinLines [] .complete ((physicalLines octets).map fun line => (Utf8.decode line).toOption)

/-! ## Values -/

/-- How far the name of a variable in a value has been read. -/
inductive Substitution where
  | none
  | open_
  | braced
deriving DecidableEq

/-- A value that is being read. -/
structure ValueState where
  strong : Bool := false
  weak : Bool := false
  escaped : Bool := false
  /-- Behind a blank only blanks and a comment may follow. -/
  expectingEnd : Bool := false
  substitution : Substitution := .none
  name : List Char := []
  /-- The characters of the value, latest first. -/
  output : List Char := []
  /-- Behind the start of a comment nothing counts. -/
  finished : Bool := false

namespace ValueState

/-- Add a character to the value. -/
def push (s : ValueState) (c : Char) : ValueState := { s with output := c :: s.output }

/-- Put the value of the variable in the place of its name. -/
def substitute (value : String → String) (s : ValueState) : ValueState :=
  { s with
    output := (value (String.ofList s.name.reverse)).toList.reverse ++ s.output
    name := []
    substitution := .none }

/-- One more character; `none` if it must not stand here. -/
def next (value : String → String) (s : ValueState) (c : Char) : Option ValueState :=
  if s.finished then some s
  else if s.expectingEnd then
    if c = ' ' ∨ c = '\t' then some s
    else if c = '#' then some { s with finished := true }
    else none
  else if s.escaped then
    let s := { s with escaped := false }
    if c = '\\' ∨ c.toNat = 39 ∨ c = '"' ∨ c = '$' ∨ c = ' ' then some (s.push c)
    else if c = 'n' then some (s.push '\n')
    else none
  else if s.strong then some (if c.toNat = 39 then { s with strong := false } else s.push c)
  else if s.substitution ≠ .none then
    if Text.isAlphanumeric c then some { s with name := c :: s.name }
    else if s.substitution = .open_ then
      if c.toNat = 0x7B ∧ s.name = [] then some { s with substitution := .braced }
      else
        let s := s.substitute value
        some (if c = '$' then { s with substitution := .open_ } else s.push c)
    else if c.toNat = 0x7D then some (s.substitute value)
    else some { s with name := c :: s.name }
  else if c = '$' then some { s with substitution := .open_ }
  else if s.weak then
    some (if c = '"' then { s with weak := false }
      else if c = '\\' then { s with escaped := true }
      else s.push c)
  else if c.toNat = 39 then some { s with strong := true }
  else if c = '"' then some { s with weak := true }
  else if c = '\\' then some { s with escaped := true }
  else if c = ' ' ∨ c = '\t' then some { s with expectingEnd := true }
  else some (s.push c)

/-- Read characters from a place on; the place of the first that must not stand there is the
fault. -/
def read (value : String → String) (s : ValueState) : (index : Nat) → List Char →
    Except Nat ValueState
  | _, [] => .ok s
  | index, c :: rest =>
    match s.next value c with
    | none => .error index
    | some s => s.read value (index + 1) rest

end ValueState

/-- The value that a text writes, with the values of variables. -/
def readValue (value : String → String) (text : List Char) : Except LineFault String :=
  match ValueState.read value {} 0 text with
  | .error index => .error ⟨text, index⟩
  | .ok s =>
    if s.substitution = .braced ∨ s.strong ∨ s.weak then
      .error ⟨text, (Utf8.encode text).length - 1⟩
    else
      let s := s.substitute value
      .ok (String.ofList s.output.reverse)

/-! ## Assignments -/

/-- Characters of a name. -/
def isNameChar (c : Char) : Bool := c.isAlphanum || c = '_' || c = '.'

/-- A name at the front and the rest. -/
def nameAt (text : List Char) : Option (List Char × List Char) :=
  if text.head?.any fun c => c.isAlpha || c = '_' then
    some (text.takeWhile isNameChar, text.dropWhile isNameChar)
  else none

/-- A text without the blanks at its front. -/
def skipBlanks (text : List Char) : List Char := text.dropWhile Text.isBlank

/-- The name that a line assigns to and the text of its value; `none` for a line that assigns
nothing. A name may stand behind the word `export`. -/
def splitAssignment (line : List Char) : Except LineFault (Option (String × List Char)) :=
  let text := skipBlanks (Text.trimEnd line)
  let total := (Utf8.encode (Text.trimEnd line)).length
  let faultAt (rest : List Char) : Except LineFault (Option (String × List Char)) :=
    .error ⟨line, total - (Utf8.encode rest).length⟩
  if text = [] ∨ text.head? = some '#' then .ok none
  else
    match nameAt text with
    | none => faultAt text
    | some (name, rest) =>
      match skipBlanks rest with
      | '=' :: value => .ok (some (String.ofList name, skipBlanks value))
      | rest =>
        if String.ofList name = "export" then
          match nameAt rest with
          | none => faultAt rest
          | some (name, rest) =>
            match skipBlanks rest with
            | '=' :: value => .ok (some (String.ofList name, skipBlanks value))
            | rest => faultAt rest
        else faultAt rest

/-- The assignment of a line; `none` for a line that assigns nothing. -/
def readLine (value : String → String) (line : List Char) :
    Except LineFault (Option (String × String)) :=
  match splitAssignment line with
  | .error e => .error e
  | .ok none => .ok none
  | .ok (some (name, text)) =>
    if text = [] ∨ text.head? = some '#' then .ok (some (name, ""))
    else (readValue value text).map fun v => some (name, v)

end SlotIndex.Environment
