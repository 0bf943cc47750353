import SlotIndex.Proofs.Text.Hex
import SlotIndex.Word.Text

/-!
# Addresses with a checksum

The text of an address has its 40 digits, and the case of the letters among them is that of a checksum:
a letter is in upper case exactly where the hash of the same digits in lower case has a digit of at
least 8.

* `Hex.marked`: a digit in the case that a mark gives it.
* `marked_digits`: digits with their marks.
* `IsChecksummed`: the rule, as a property of a text.
* **`Address.isChecksummed_checksum`**.
-/

namespace SlotIndex

/-- The digit of a value, in upper case if the mark is at least 8. -/
def Hex.marked (value mark : Nat) : Char :=
  if mark < 8 then digit value else (digit value).toUpper

/-- A digit is in upper case exactly if it is a letter with a mark of at least 8. -/
def Hex.IsMarked (c : Char) (mark : Nat) : Prop := c.isUpper = true ↔ c.isAlpha = true ∧ 8 ≤ mark

/-- A text with a mark and the 40 digits of a number in the case of their checksum. -/
def IsChecksummed (n : Nat) (text : String) : Prop :=
  ∃ digits values, text.toList = '0' :: 'x' :: digits ∧ Hex.Digits digits values ∧
    digits.length = 40 ∧ Hex.number values = n ∧
    List.Forall₂ Hex.IsMarked digits
      ((Hex.nibbles (keccak256 (Utf8.encode (digits.map Char.toLower))).bytes).take 40)

namespace Hex

theorem marked_spec {value : Nat} (h : value < 16) (mark : Nat) :
    IsDigit (marked value mark) value ∧ (marked value mark).toLower = digit value ∧
      IsMarked (marked value mark) mark := by
  have hall : ∀ value : Fin 16,
      (IsDigit (digit value) value ∧ (digit value).toLower = digit value ∧
        (digit value).isUpper = false) ∧
      IsDigit (digit value).toUpper value ∧ (digit value).toUpper.toLower = digit value ∧
        (digit value).toUpper.isUpper = (digit value).toUpper.isAlpha := by decide
  obtain ⟨⟨hlower, hlowered, hcase⟩, hupper, huppered, hcase'⟩ := hall ⟨value, h⟩
  unfold marked IsMarked
  by_cases hmark : mark < 8
  · rw [if_pos hmark, hcase]
    exact ⟨hlower, hlowered, iff_of_false Bool.false_ne_true fun hc => absurd hc.2 (by omega)⟩
  · rw [if_neg hmark, hcase']
    exact ⟨hupper, huppered, (and_iff_left (by omega)).symm⟩

/-- Digits with their marks are the same digits, in the case of the marks. -/
theorem marked_digits {values marks : List Nat} (hvalues : ∀ v ∈ values, v < 16)
    (hlength : values.length ≤ marks.length) :
    let digits := List.zipWith marked values marks
    Digits digits values ∧ digits.map Char.toLower = values.map digit ∧
      List.Forall₂ IsMarked digits (marks.take values.length) := by
  induction values generalizing marks with
  | nil => exact ⟨.nil, rfl, .nil⟩
  | cons value values ih =>
    cases marks with
    | nil => exact absurd hlength (Nat.not_succ_le_zero _)
    | cons mark marks =>
      obtain ⟨hdigits, hlowered, hmarked⟩ := ih (fun v hv => hvalues v (List.mem_cons_of_mem _ hv))
        (Nat.le_of_succ_le_succ hlength)
      obtain ⟨hdigit, hlower, hmark⟩ := marked_spec (hvalues value List.mem_cons_self) mark
      refine ⟨.cons hdigit hdigits, ?_, .cons hmark hmarked⟩
      rw [List.zipWith_cons_cons, List.map_cons, List.map_cons, hlower, hlowered]

end Hex

theorem Hex.zipWith_encode (bytes : List UInt8) (marks : List Nat) :
    List.zipWith (fun c n => if n < 8 then c else c.toUpper) (encode bytes) marks =
      List.zipWith marked (nibbles bytes) marks := by
  rw [encode_eq_map, List.zipWith_map_left]
  rfl

/-- **The text of an address** has its digits in the case of their checksum. -/
theorem Address.isChecksummed_checksum (a : Address) : IsChecksummed a.toNat a.checksum := by
  let marks := Hex.nibbles (keccak256 (Utf8.encode (Hex.encode a.bytes))).bytes
  have hlength : (Hex.nibbles a.bytes).length = 40 := by rw [Hex.length_nibbles, length_bytes]
  have hmarks : (Hex.nibbles a.bytes).length ≤ marks.length := by
    rw [hlength, Hex.length_nibbles, Word.length_bytes]
    decide
  obtain ⟨hdigits, hlowered, hmarked⟩ := Hex.marked_digits (Hex.nibbles_lt a.bytes) hmarks
  rw [← Hex.encode_eq_map] at hlowered
  refine ⟨_, _, ?_, hdigits, ?_, ?_, ?_⟩
  · rw [checksum, String.toList_ofList, Hex.zipWith_encode]
  · rw [hdigits.length_eq, hlength]
  · rw [Hex.number_nibbles, toNat_bytes]
  · rw [hlowered, ← hlength]
    exact hmarked

end SlotIndex
