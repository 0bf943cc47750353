import SlotIndex.Text.Unprintable

/-!
# Quoted text

Text between two quotation marks of one kind. The mark and the backslash stand behind a backslash,
and so do the letters for the end of a line, the return, the tabulator and the null character; other
characters that are not shown are written by their code.

* `escaped`: the writing of one character; `quoted`: the writing of a text.
-/

namespace SlotIndex.Text

/-- A character by its code, in hexadecimal digits without leading zeros. -/
def byCode (c : Char) : List Char :=
  "\\u\x7b".toList ++ Nat.toDigits 16 c.toNat ++ ['\x7d']

/-- The writing of a character between two marks. -/
def escaped (mark c : Char) : List Char :=
  if c = mark ∨ c = '\\' then ['\\', c]
  else if c = '\n' then ['\\', 'n']
  else if c = '\r' then ['\\', 'r']
  else if c = '\t' then ['\\', 't']
  else if c.toNat = 0 then ['\\', '0']
  else if isUnprintable c then byCode c
  else [c]

/-- A text between two marks. -/
def quoted (mark : Char) (text : List Char) : String :=
  String.ofList (mark :: (text.flatMap (escaped mark) ++ [mark]))

/-- The single quotation mark. -/
def singleMark : Char := Char.ofNat 39

end SlotIndex.Text
