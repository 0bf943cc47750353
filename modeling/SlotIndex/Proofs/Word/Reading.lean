import SlotIndex.Proofs.Text.Decimal
import SlotIndex.Proofs.Text.Hex
import SlotIndex.Word.Text

/-!
# Words that are read from digits

A text of hexadecimal digits behind its mark, or of decimal digits, is read as the word of the number that
the digits write.

* `afterHexMark?_decimal`: decimal digits have no mark in front.
* `bytes_ofBytes_of_le`, `bytes_ofBytes_eq_fitted`: the word of a few bytes, and of any.
* **`parse_hexDigits`**, **`parse_decimalDigits`**.
-/

namespace SlotIndex

/-- Decimal digits have no mark in front. -/
theorem afterHexMark?_decimal {text : List Char} {values : List Nat} (h : Decimal.Digits text values) :
    afterHexMark? text = none := by
  unfold afterHexMark?
  split
  · obtain _ | ⟨-, hx | ⟨hx, -⟩⟩ := h
    exact absurd hx.1 (by decide)
  · obtain _ | ⟨-, hx | ⟨hx, -⟩⟩ := h
    exact absurd hx.1 (by decide)
  · rfl

namespace Word

open scoped CoreNat

/-- The word of at most 32 bytes has them at its end, behind zeros. -/
theorem bytes_ofBytes_of_le {bytes : List UInt8} (h : bytes.length ≤ 32) :
    (ofBytes bytes).bytes = List.replicate (32 - bytes.length) 0 ++ bytes := by
  have hlt : BigEndian.toNat bytes < 256 ^ (32 : Nat) :=
    Nat.lt_of_lt_of_le (BigEndian.toNat_lt bytes) (Nat.pow_le_pow_right (by decide) h)
  rw [Word.bytes, ofBytes, toNat_ofNat, Nat.mod_eq_of_lt hlt, BigEndian.ofNat_toNat_of_le h]

/-- Bytes in the width of a word: zeros in front of few bytes, and of many the last 32. -/
def fitted (bytes : List UInt8) : List UInt8 :=
  if bytes.length ≤ 32 then List.replicate (32 - bytes.length) 0 ++ bytes
  else bytes.drop (bytes.length - 32)

theorem bytes_ofBytes_eq_fitted (bytes : List UInt8) : (ofBytes bytes).bytes = fitted bytes := by
  by_cases h : bytes.length ≤ 32
  · rw [fitted, if_pos h, bytes_ofBytes_of_le h]
  · have hlength : (bytes.drop (bytes.length - 32)).length = 32 := by
      rw [List.length_drop]
      omega
    -- The bytes in front of the last 32 write a multiple of what wraps around.
    have hsame : ofBytes bytes = ofBytes (bytes.drop (bytes.length - 32)) := by
      apply Word.ext
      rw [ofBytes, ofBytes, toNat_ofNat, toNat_ofNat, (BigEndian.toNat_split 32 bytes).1]
      exact (Nat.mod_mod _ _).symm
    rw [fitted, if_neg h, hsame, bytes_ofBytes hlength]

/-- **Hexadecimal digits** behind their mark, two for each of at most 32 bytes. -/
theorem parse_hexDigits {written : String} {digits : List Char} {values : List Nat}
    (hwritten : written.toList = '0' :: 'x' :: digits) (hdigits : Hex.Digits digits values)
    (heven : digits.length % 2 = 0) (hlength : digits.length ≤ 64) :
    parse written = .ok (ofNat (Hex.number values)) := by
  have htrim : Text.trim written.toList = '0' :: 'x' :: digits := by
    rw [hwritten]
    refine Text.trim_of_no_blanks ?_
    rw [List.forall_mem_cons, List.forall_mem_cons]
    exact ⟨rfl, rfl, hdigits.forall_mem Hex.IsDigit.not_blank⟩
  obtain ⟨bytes, hbytes, htwice, hnumber⟩ := Hex.decode_digits hdigits heven
  have hle : bytes.length ≤ 32 := by omega
  simp only [parse, htrim, afterHexMark?, hbytes, if_pos hle, ofBytes, hnumber]

/-- **Decimal digits** that write a number of at most 32 bytes. -/
theorem parse_decimalDigits {written : String} {values : List Nat}
    (hdigits : Decimal.Digits written.toList values) (hlt : Decimal.number values < 256 ^ (32 : Nat)) :
    parse written = .ok (ofNat (Decimal.number values)) := by
  have htrim : Text.trim written.toList = written.toList :=
    Text.trim_of_no_blanks (hdigits.forall_mem Decimal.IsDigit.not_blank)
  simp only [parse, htrim, afterHexMark?_decimal hdigits, Decimal.readNumeral_digits hdigits hlt]

end Word

end SlotIndex
