import SlotIndex.Proofs.Word.Reading

/-!
# Words in decimal

A text without a hexadecimal mark is read as a decimal number. It may have any number of zeros in front
and underscores anywhere, and it is a word exactly if its digits write a number below `2 ^ 256`.

* `afterHexMark?_eq_none_iff`: texts without a mark.
* `Decimal.number_replicate_append`: zeros in front.
* **`Word.parse_unmarked`**: what is read without a mark; **`Word.decimal_words_exact`**.
-/

namespace SlotIndex

open scoped CoreNat

theorem afterHexMark?_eq_none_iff {text : List Char} :
    afterHexMark? text = none ↔ ¬ ['0', 'x'] <+: text ∧ ¬ ['0', 'X'] <+: text := by
  constructor
  · refine fun h => ⟨?_, ?_⟩ <;>
    · rintro ⟨rest, rfl⟩
      contradiction
  · rintro ⟨hx, hX⟩
    unfold afterHexMark?
    split
    · exact absurd ⟨_, rfl⟩ hx
    · exact absurd ⟨_, rfl⟩ hX
    · rfl

/-- Zeros in front change nothing in a number. -/
theorem Decimal.number_replicate_append (zeros : Nat) (values : List Nat) :
    number (List.replicate zeros 0 ++ values) = number values := by
  induction zeros with
  | zero => rfl
  | succ zeros ih => exact ih

namespace Word

variable {written : String} {w : Word}

/-- **What is read without a mark**: digits and underscores that write a number of at most 32 bytes, as the
word of this number. -/
theorem parse_unmarked (h : afterHexMark? (Text.trim written.toList) = none) :
    parse written = .ok w ↔ Decimal.IsNumeral (Text.trim written.toList) ∧
      Decimal.number (Decimal.digitValues (Text.trim written.toList)) < 256 ^ (32 : Nat) ∧
      Decimal.number (Decimal.digitValues (Text.trim written.toList)) = w.toNat := by
  rw [← Decimal.readNumeral_eq_ok, parse]
  simp only [h]
  cases hread : Decimal.readNumeral (Text.trim written.toList) with
  | error fault => simp
  | ok n =>
    have hlt := (Decimal.readNumeral_eq_ok.1 hread).2.1
    rw [(Decimal.readNumeral_eq_ok.1 hread).2.2] at hlt
    simp only [Except.ok.injEq]
    constructor
    · rintro rfl
      exact (Nat.mod_eq_of_lt hlt).symm
    · rintro rfl
      exact ofNat_toNat w

/-- Zeros and the shortest text of a number are digits that write the number. -/
theorem exists_digits_padded (zeros n : Nat) : ∃ values,
    Decimal.Digits (List.replicate zeros '0' ++ Decimal.digits n) values ∧
      Decimal.number values = n := by
  obtain ⟨values, hvalues, hnumber⟩ := Decimal.exists_digits n
  refine ⟨List.replicate zeros 0 ++ values, List.rel_append ?_ hvalues, ?_⟩
  · exact List.forall₂_iff_get.2 ⟨by simp, fun i hi hi' => by
      simp only [List.get_eq_getElem, List.getElem_replicate]
      exact Decimal.isDigit_digit (by decide : 0 < 10)⟩
  · rw [Decimal.number_replicate_append, hnumber]

/-- **Decimal words are exact.** A text that does not begin with a mark, apart from blanks, is read exactly
if all its characters are digits and underscores and the number that the digits write, which is zero
without digits, is below `2 ^ 256`; the word has the 32 bytes of this number. So of a number with any
number of zeros in front, each below `2 ^ 256` is read as itself, up to `2 ^ 256 - 1`, and no other is
read, from `2 ^ 256` on. -/
theorem decimal_words_exact :
    (∀ written : String, ¬ ['0', 'x'] <+: Text.trim written.toList →
      ¬ ['0', 'X'] <+: Text.trim written.toList →
      ∀ w, parse written = .ok w ↔
        (∀ c ∈ Text.trim written.toList, c.isDigit = true ∨ c = '_') ∧
        Decimal.number (Decimal.digitValues (Text.trim written.toList)) < 2 ^ (256 : Nat) ∧
        w.bytes = BigEndian.ofNat 32
          (Decimal.number (Decimal.digitValues (Text.trim written.toList)))) ∧
    ∀ zeros n w, parse (String.ofList (List.replicate zeros '0' ++ Decimal.digits n)) = .ok w ↔
      n < 2 ^ (256 : Nat) ∧ w.toNat = n := by
  have hlimit : 256 ^ (32 : Nat) = 2 ^ (256 : Nat) := by decide
  constructor
  · intro written hx hX w
    rw [parse_unmarked (afterHexMark?_eq_none_iff.2 ⟨hx, hX⟩), hlimit]
    refine and_congr_right fun _ => and_congr_right fun hlt => ?_
    constructor
    · rintro h
      rw [h]
      rfl
    · intro hbytes
      have htoNat := congrArg BigEndian.toNat hbytes
      rw [toNat_bytes, BigEndian.toNat_ofNat, hlimit, Nat.mod_eq_of_lt hlt] at htoNat
      exact htoNat.symm
  · intro zeros n w
    obtain ⟨values, hvalues, hnumber⟩ := exists_digits_padded zeros n
    have htrim : Text.trim (String.ofList (List.replicate zeros '0' ++ Decimal.digits n)).toList =
        List.replicate zeros '0' ++ Decimal.digits n := by
      rw [String.toList_ofList]
      exact Text.trim_of_no_blanks (hvalues.forall_mem Decimal.IsDigit.not_blank)
    have hmark : afterHexMark?
        (Text.trim (String.ofList (List.replicate zeros '0' ++ Decimal.digits n)).toList) = none := by
      rw [htrim]
      exact afterHexMark?_decimal hvalues
    rw [parse_unmarked hmark, htrim, hvalues.digitValues, hnumber, hlimit]
    exact ⟨fun h => ⟨h.2.1, h.2.2.symm⟩, fun h => ⟨hvalues.isNumeral, h.1, h.2.symm⟩⟩

/-- Underscores and blanks, no digits at all, and the two numbers around the limit. -/
theorem decimal_words_exact_sample :
    parse " 00_1_0_\t" = .ok (ofNat 10) ∧ parse "_" = .ok (ofNat 0) ∧
      parse (String.ofList (List.replicate 3 '0' ++ Decimal.digits (2 ^ (256 : Nat) - 1))) =
        .ok (ofNat (2 ^ (256 : Nat) - 1)) ∧
      ∀ w, parse (String.ofList (List.replicate 3 '0' ++ Decimal.digits (2 ^ (256 : Nat)))) ≠ .ok w := by
  have hten : Decimal.IsNumeral (Text.trim " 00_1_0_\t".toList) := by decide
  have hzero : Decimal.IsNumeral (Text.trim "_".toList) := by decide
  refine ⟨?_, ?_, ?_, fun w hw => ?_⟩
  · exact (decimal_words_exact.1 " 00_1_0_\t" (by decide) (by decide) _).2 ⟨hten, by decide⟩
  · exact (decimal_words_exact.1 "_" (by decide) (by decide) _).2 ⟨hzero, by decide⟩
  · exact (decimal_words_exact.2 3 _ _).2 ⟨by decide, by decide⟩
  · exact absurd ((decimal_words_exact.2 3 _ w).1 hw).1 (by decide)

end Word

end SlotIndex
