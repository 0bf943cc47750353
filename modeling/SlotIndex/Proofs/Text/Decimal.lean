import SlotIndex.Proofs.Text.Digits
import SlotIndex.Proofs.Text.Utf8
import SlotIndex.Text.Blank
import SlotIndex.Text.Decimal

/-!
# Decimal digits

A text of decimal digits writes a number, and a number below the limit is read from it, however many
digits it has. The shortest text of a number is such a text.

* `IsDigit`, `Digits`, `number`: texts with the values of their digits, and the number they write.
* **`readUnsigned_digits`**, `exists_digits_of_readUnsigned`: what is read from digits, perhaps behind a
  plus sign, and nothing else.
* `IsDigit.not_blank`: nothing is trimmed from digits.
* `IsNumeral`, `digitValues`, **`readNumeral_eq_ok`**: what is read in groups, and as which number.
* `exists_digits`, `trim_text`: the shortest text of a number.
* `Canonical`, `canonical_digits`: it has no zeros in front.
* `text_injective`: different numbers have different texts.
-/

namespace SlotIndex.Decimal

open scoped CoreNat

/-- A decimal digit with its value. -/
def IsDigit (c : Char) (n : Nat) : Prop := c.isDigit = true ∧ n = c.toNat - 48

/-- A text of digits with their values. -/
abbrev Digits : List Char → List Nat → Prop := Text.Digits IsDigit

instance (c : Char) (n : Nat) : Decidable (IsDigit c n) := inferInstanceAs (Decidable (_ ∧ _))

/-- The number that digit values write in base 10 behind a number. -/
def numberFrom (n : Nat) (values : List Nat) : Nat := values.foldl (fun n d => 10 * n + d) n

/-- The number that digit values write in base 10. -/
def number (values : List Nat) : Nat := numberFrom 0 values

theorem le_numberFrom (values : List Nat) (n : Nat) : n ≤ numberFrom n values := by
  induction values generalizing n with
  | nil => exact Nat.le_refl n
  | cons d values ih =>
    have hle : n ≤ 10 * n + d := by omega
    exact Nat.le_trans hle (ih _)

/-! ## Digits -/

theorem IsDigit.range {c : Char} {n : Nat} (h : IsDigit c n) : 48 ≤ c.toNat ∧ c.toNat ≤ 57 := by
  simpa [Char.isDigit, UInt32.le_iff_toNat_le] using h.1

theorem IsDigit.not_blank {c : Char} {n : Nat} (h : IsDigit c n) : Text.isBlank c = false := by
  have hall : ∀ k : Fin 128, (Char.ofNat k).isDigit = true → Text.isBlank (Char.ofNat k) = false := by
    decide
  have hrange := h.range
  have hblank := hall ⟨c.toNat, by omega⟩ (by simpa only [Char.ofNat_toNat] using h.1)
  rwa [Char.ofNat_toNat] at hblank

theorem Digits.isDigit {text : List Char} {values : List Nat} (h : Digits text values) :
    ∀ c ∈ text, c.isDigit = true :=
  h.forall_mem And.left

/-! ## Reading -/

/-- Digits are read to their end if the number stays below the limit. What has been read never grows
above the whole number, so the limit is not met before. -/
theorem readDigits_digits {limit : Nat} {text : List Char} {values : List Nat}
    (h : Digits text values) {n : Nat} (hlt : numberFrom n values < limit) :
    readDigits limit n text = .ok (numberFrom n values) := by
  induction h generalizing n with
  | nil => rfl
  | @cons c d text values hc _ ih =>
    have hbelow : 10 * n + d < limit := Nat.lt_of_le_of_lt (le_numberFrom values _) hlt
    have hread := ih hlt
    obtain ⟨hdigit, rfl⟩ := hc
    rw [readDigits, if_pos hdigit]
    simp only [if_pos hbelow]
    exact hread

/-- **Digits behind an optional plus sign** are read as the number that they write. -/
theorem readUnsigned_digits {limit : Nat} {sign text : List Char} {values : List Nat}
    (hsign : sign = [] ∨ sign = ['+']) (h : Digits text values) (hne : text ≠ [])
    (hlt : number values < limit) : readUnsigned limit (sign ++ text) = .ok (number values) := by
  match text, values, h with
  | c :: text, d :: values, .cons hc h =>
    have hread := readDigits_digits (.cons hc h) hlt
    rcases hsign with rfl | rfl
    · have hplus : c ≠ '+' := by
        rintro rfl
        exact absurd hc.1 (by decide)
      rw [List.nil_append, readUnsigned]
      · exact hread
      · rintro ⟨⟩
      · rintro ⟨⟩
        exact hplus rfl
      · rintro rest ⟨⟩
        exact hplus rfl
    · exact hread

/-- What is read digit by digit are digits that write a number below the limit. -/
theorem exists_digits_of_readDigits {limit n m : Nat} {text : List Char}
    (h : readDigits limit n text = .ok m) (hn : n < limit) :
    ∃ values, Digits text values ∧ numberFrom n values = m ∧ m < limit := by
  induction text generalizing n with
  | nil => exact ⟨[], .nil, Except.ok.inj h, Except.ok.inj h ▸ hn⟩
  | cons c text ih =>
    by_cases hdigit : c.isDigit = true
    · by_cases hlt : 10 * n + (c.toNat - 48) < limit
      · simp only [readDigits, if_pos hdigit, if_pos hlt] at h
        obtain ⟨values, hvalues, hnumber, hm⟩ := ih h hlt
        exact ⟨_, .cons ⟨hdigit, rfl⟩ hvalues, hnumber, hm⟩
      · simp only [readDigits, if_pos hdigit, if_neg hlt, reduceCtorEq] at h
    · rw [readDigits, if_neg hdigit] at h
      contradiction

/-- **What is read as a number** is an optional plus sign and digits that write a number below the
limit. -/
theorem exists_digits_of_readUnsigned {limit n : Nat} {text : List Char}
    (h : readUnsigned limit text = .ok n) (hpos : 0 < limit) :
    ∃ sign digits values, text = sign ++ digits ∧ (sign = [] ∨ sign = ['+']) ∧
      Digits digits values ∧ digits ≠ [] ∧ number values = n ∧ n < limit := by
  revert h
  fun_cases readUnsigned limit text
  case case1 => exact fun h => by cases h
  case case2 => exact fun h => by cases h
  case case3 digits hne =>
    intro h
    obtain ⟨values, hvalues, hread⟩ := exists_digits_of_readDigits h hpos
    exact ⟨['+'], digits, values, rfl, .inr rfl, hvalues, hne, hread⟩
  case case4 hne _ _ =>
    intro h
    obtain ⟨values, hvalues, hread⟩ := exists_digits_of_readDigits h hpos
    exact ⟨[], text, values, rfl, .inl rfl, hvalues, hne, hread⟩

/-! ## Reading in groups -/

/-- A text of decimal digits, with underscores anywhere. -/
def IsNumeral (text : List Char) : Prop := ∀ c ∈ text, c.isDigit = true ∨ c = '_'

instance (text : List Char) : Decidable (IsNumeral text) :=
  List.decidableBAll (fun c : Char => c.isDigit = true ∨ c = '_') text

/-- The values of the digits in a text. -/
def digitValues (text : List Char) : List Nat :=
  (text.filter Char.isDigit).map fun c => c.toNat - 48

theorem Digits.isNumeral {text : List Char} {values : List Nat} (h : Digits text values) :
    IsNumeral text :=
  h.forall_mem fun hc => .inl hc.1

theorem Digits.digitValues {text : List Char} {values : List Nat} (h : Digits text values) :
    digitValues text = values := by
  induction h with
  | nil => rfl
  | cons hc _ ih =>
    rw [Decimal.digitValues, List.filter_cons_of_pos hc.1, List.map_cons, ← hc.2]
    exact congrArg _ ih

/-- A digit is one octet. -/
theorem IsDigit.octets {c : Char} {n : Nat} (h : IsDigit c n) :
    ∃ b : UInt8, String.utf8EncodeChar c = [b] ∧ b ≠ 95 ∧ (48 ≤ b && b ≤ 57) = true ∧
      b.toNat - 48 = n := by
  have hrange := h.range
  obtain ⟨b, rest, hoctets, ⟨-, hb, rfl⟩ | ⟨hc, -⟩⟩ := Utf8.exists_lead c
  · refine ⟨b, hoctets, ?_, ?_, by rw [h.2, hb]⟩
    · rintro rfl
      change 95 = c.toNat at hb
      omega
    · rw [Bool.and_eq_true, decide_eq_true_eq, decide_eq_true_eq, UInt8.le_iff_toNat_le,
        UInt8.le_iff_toNat_le, hb]
      exact hrange
  · omega

/-- A character that is neither a digit nor an underscore begins with an octet that is neither. -/
theorem exists_bad_octet {c : Char} (hdigit : c.isDigit = false) (hskipped : c ≠ '_') :
    ∃ (b : UInt8) (rest : List UInt8), String.utf8EncodeChar c = b :: rest ∧ b ≠ 95 ∧
      (48 ≤ b && b ≤ 57) = false := by
  obtain ⟨b, rest, hoctets, hlead⟩ := Utf8.exists_lead c
  refine ⟨b, rest, hoctets, ?_, ?_⟩
  · rintro rfl
    change _ ∧ 95 = c.toNat ∧ _ ∨ _ ∧ 0x80 ≤ 95 at hlead
    refine hskipped (Char.toNat_inj.1 ?_)
    change c.toNat = 95
    omega
  · rw [Bool.eq_false_iff, ne_eq, Bool.and_eq_true, decide_eq_true_eq, decide_eq_true_eq,
      UInt8.le_iff_toNat_le, UInt8.le_iff_toNat_le]
    change ¬ (48 ≤ b.toNat ∧ b.toNat ≤ 57)
    have hno : ¬ (48 ≤ c.toNat ∧ c.toNat ≤ 57) := by
      simpa [Char.isDigit, UInt32.le_iff_toNat_le] using hdigit
    omega

namespace Numeral

/-- The number that has been read so far, with the open group. -/
def value (s : Numeral) : Nat := s.total * 10 ^ s.size + s.group

/-- A digit is taken in, whether it fills a group or not, unless the number has reached the limit. -/
theorem push_cases (s : Numeral) (d : Nat) :
    (∃ t : Numeral, s.push d = .ok t ∧ t.value = 10 * s.value + d) ∨
      (∃ e, s.push d = .error e) ∧ 256 ^ (32 : Nat) ≤ 10 * s.value + d := by
  have hvalue : s.total * 10 ^ (s.size + 1) + (10 * s.group + d) = 10 * s.value + d := by
    rw [value, Nat.pow_succ, ← Nat.mul_assoc]
    omega
  unfold push
  simp only
  split
  · rw [close]
    simp only [hvalue]
    by_cases hlt : 10 * s.value + d < 256 ^ (32 : Nat)
    · rw [if_pos hlt]
      exact .inl ⟨_, rfl, by simp [value]⟩
    · rw [if_neg hlt]
      exact .inr ⟨⟨_, rfl⟩, Nat.le_of_not_lt hlt⟩
  · exact .inl ⟨_, rfl, hvalue⟩

/-- **What is read behind digits**: digits and underscores, as the number of the digits, if it is below
the limit. What has been read never grows above the whole number. So a group that joins the number does
not meet the limit too early, and what no group has met is met at the end. -/
theorem read_eq_ok {s : Numeral} {text : List Char} {n : Nat} :
    s.read (Utf8.encode text) = .ok n ↔ IsNumeral text ∧
      numberFrom s.value (digitValues text) < 256 ^ (32 : Nat) ∧
      numberFrom s.value (digitValues text) = n := by
  induction text generalizing s with
  | nil =>
    change (if s.value < 256 ^ (32 : Nat) then Except.ok s.value else .error NumeralFault.tooLarge) =
      .ok n ↔
      IsNumeral [] ∧ s.value < 256 ^ (32 : Nat) ∧ s.value = n
    have hnil : IsNumeral [] := fun _ hc => absurd hc List.not_mem_nil
    by_cases hlt : s.value < 256 ^ (32 : Nat)
    · rw [if_pos hlt, Except.ok.injEq, and_iff_right hnil, and_iff_right hlt]
    · rw [if_neg hlt]
      exact iff_of_false (fun h => by cases h) fun h => hlt h.2.1
  | cons c text ih =>
    have hcons : IsNumeral (c :: text) ↔ (c.isDigit = true ∨ c = '_') ∧ IsNumeral text :=
      List.forall_mem_cons
    rw [Utf8.encode_cons, hcons]
    by_cases hdigit : c.isDigit = true
    · obtain ⟨b, hoctets, hskipped, hrange, hb⟩ := IsDigit.octets ⟨hdigit, rfl⟩
      have hvalues : digitValues (c :: text) = (c.toNat - 48) :: digitValues text := by
        rw [digitValues, List.filter_cons_of_pos hdigit]
        rfl
      have hfrom : numberFrom s.value (digitValues (c :: text)) =
          numberFrom (10 * s.value + (c.toNat - 48)) (digitValues text) := by rw [hvalues]; rfl
      rw [hoctets, List.singleton_append, read, if_neg hskipped, if_pos hrange, hb, hfrom]
      rcases push_cases s (c.toNat - 48) with ⟨t, hpush, hvalue⟩ | ⟨⟨e, hpush⟩, hle⟩
      · simp only [hpush, ih, hvalue, hdigit, true_or, true_and]
      · have hover := Nat.le_trans hle (le_numberFrom (digitValues text) _)
        rw [hpush]
        exact iff_of_false (fun h => by cases h) fun h => Nat.not_lt.2 hover h.2.1
    · by_cases hskipped : c = '_'
      · subst hskipped
        have hvalues : digitValues ('_' :: text) = digitValues text := by
          rw [digitValues, List.filter_cons_of_neg hdigit]
          rfl
        have hread : s.read (String.utf8EncodeChar '_' ++ Utf8.encode text) =
            s.read (Utf8.encode text) := rfl
        rw [hread, ih, hvalues]
        simp
      · obtain ⟨b, rest, hoctets, hb, hrange⟩ :=
          exists_bad_octet (Bool.eq_false_iff.2 hdigit) hskipped
        rw [hoctets, List.cons_append, read, if_neg hb, if_neg (by simp [hrange])]
        simp [hdigit, hskipped]

end Numeral

/-- **What is read in groups**: digits and underscores, as the number of the digits, if it is below the
limit. -/
theorem readNumeral_eq_ok {text : List Char} {n : Nat} :
    readNumeral text = .ok n ↔ IsNumeral text ∧ number (digitValues text) < 256 ^ (32 : Nat) ∧
      number (digitValues text) = n :=
  Numeral.read_eq_ok

theorem readNumeral_digits {text : List Char} {values : List Nat} (h : Digits text values)
    (hlt : number values < 256 ^ (32 : Nat)) : readNumeral text = .ok (number values) := by
  rw [readNumeral_eq_ok, h.digitValues]
  exact ⟨h.isNumeral, hlt, rfl⟩

/-! ## Writing -/

theorem isDigit_digit {n : Nat} (h : n < 10) : IsDigit (digit n) n := by
  have hall : ∀ n : Fin 10, (digit n).isDigit = true ∧ (n : Nat) = (digit n).toNat - 48 := by decide
  exact hall ⟨n, h⟩

/-- The digits of the shortest text of a number, with their values. -/
theorem exists_digits (n : Nat) : ∃ values, Digits (digits n) values ∧ number values = n := by
  induction n using digits.induct with
  | case1 n hn =>
    rw [digits, if_pos hn]
    exact ⟨[n], .cons (isDigit_digit hn) .nil, Nat.zero_add n⟩
  | case2 n hn ih =>
    obtain ⟨values, hvalues, hnumber⟩ := ih
    have hlast : n % 10 < 10 := Nat.mod_lt _ (by decide)
    rw [digits, if_neg hn]
    refine ⟨values ++ [n % 10], List.rel_append hvalues (.cons (isDigit_digit hlast) .nil), ?_⟩
    rw [number, numberFrom, List.foldl_append]
    change 10 * number values + n % 10 = n
    rw [hnumber]
    exact Nat.div_add_mod n 10

theorem toList_text (n : Nat) : (text n).toList = digits n := String.toList_ofList

theorem isDigit_of_mem_digits {n : Nat} {c : Char} (h : c ∈ digits n) : c.isDigit = true := by
  obtain ⟨values, hdigits, -⟩ := exists_digits n
  exact hdigits.isDigit c h

/-- Different numbers have different texts. -/
theorem text_injective : Function.Injective text := by
  intro n m h
  have hdigits : digits n = digits m := String.ofList_injective h
  obtain ⟨values, hvalues, hn⟩ := exists_digits n
  obtain ⟨values', hvalues', hm⟩ := exists_digits m
  rw [← hn, ← hm, ← hvalues.digitValues, ← hvalues'.digitValues, hdigits]

theorem digits_ne_nil (n : Nat) : digits n ≠ [] := by
  rw [digits]
  split <;> simp

/-- The first digit is a zero only in the text of zero. -/
theorem head?_digits_ne {n : Nat} (h : 0 < n) : (digits n).head? ≠ some '0' := by
  induction n using digits.induct with
  | case1 n hn =>
    have hall : ∀ n : Fin 10, 0 < (n : Nat) → digit n ≠ '0' := by decide
    rw [digits, if_pos hn]
    exact fun hhead => hall ⟨n, hn⟩ h (Option.some.inj hhead)
  | case2 n hn ih =>
    rw [digits, if_neg hn, List.head?_append_of_ne_nil _ (digits_ne_nil _)]
    exact ih (by omega)

/-- A text of digits that writes a number, without zeros in front. -/
def Canonical (text : List Char) (n : Nat) : Prop :=
  (∃ values, Digits text values ∧ number values = n) ∧ text ≠ [] ∧
    (text.head? = some '0' → text = ['0'])

theorem canonical_digits (n : Nat) : Canonical (digits n) n := by
  refine ⟨exists_digits n, digits_ne_nil n, fun hhead => ?_⟩
  cases n with
  | zero =>
    rw [digits, if_pos (by decide)]
    rfl
  | succ n => exact absurd hhead (head?_digits_ne (Nat.succ_pos n))

/-- A text that has been written has no blanks at its ends. -/
theorem trim_text (n : Nat) : Text.trim (text n).toList = digits n := by
  rw [toList_text]
  obtain ⟨values, hdigits, -⟩ := exists_digits n
  exact Text.trim_of_no_blanks (hdigits.forall_mem IsDigit.not_blank)

end SlotIndex.Decimal
