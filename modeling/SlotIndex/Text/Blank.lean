/-!
# Blanks

The characters with the Unicode property `White_Space`, and the removal of blanks from both ends
of a text.

* `isBlank`, `trim`.
* `trim_of_no_blank_ends`: a text that neither begins nor ends with a blank is its own trim.
* `trim_of_no_blanks`: nor does a text without any blank change.
-/

namespace SlotIndex.Text

/-- The characters with the Unicode property `White_Space`. -/
def isBlank (c : Char) : Bool :=
  let n := c.toNat
  (0x09 ≤ n && n ≤ 0x0D) || n = 0x20 || n = 0x85 || n = 0xA0 || n = 0x1680
    || (0x2000 ≤ n && n ≤ 0x200A) || n = 0x2028 || n = 0x2029 || n = 0x202F || n = 0x205F
    || n = 0x3000

/-- A text without the blanks at its end. -/
def trimEnd (text : List Char) : List Char :=
  (text.reverse.dropWhile isBlank).reverse

/-- A text without the blanks at its ends. -/
def trim (text : List Char) : List Char :=
  trimEnd (text.dropWhile isBlank)

theorem trimEnd_eq_self {text : List Char} (h : ∀ c ∈ text.getLast?, ¬ isBlank c) :
    trimEnd text = text := by
  rw [trimEnd, List.getLast?_eq_head?_reverse] at *
  cases hr : text.reverse with
  | nil => simpa using hr.symm
  | cons c rest =>
    have hc : ¬ isBlank c := h c (by simp [hr])
    rw [List.dropWhile_cons_of_neg (by simpa using hc), ← hr, List.reverse_reverse]

theorem trim_of_no_blank_ends {text : List Char} (hf : ∀ c ∈ text.head?, ¬ isBlank c)
    (hl : ∀ c ∈ text.getLast?, ¬ isBlank c) : trim text = text := by
  cases text with
  | nil => rfl
  | cons c rest =>
    rw [trim, List.dropWhile_cons_of_neg (by simpa using hf c (by simp)), trimEnd_eq_self hl]

theorem trim_of_no_blanks {text : List Char} (h : ∀ c ∈ text, isBlank c = false) :
    trim text = text := by
  refine trim_of_no_blank_ends (fun c hc => ?_) fun c hc => ?_
  · simp [h c (List.mem_of_mem_head? hc)]
  · simp [h c (List.mem_of_mem_getLast? hc)]

end SlotIndex.Text
