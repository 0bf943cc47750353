import SlotIndex.Proofs.Text.Digits
import SlotIndex.Proofs.Text.Utf8
import SlotIndex.Word.Text

/-!
# Hexadecimal digits

A text of hexadecimal digits of either case writes a number, and the bytes that are read from it write
the same number.

* `IsDigit`, `Digits`: characters and texts with the values of their digits.
* `IsDigit.not_blank`, `Digits.not_mem`: nothing is trimmed from digits, and nothing else is among them.
* `number`: the number that digit values write in base 16.
* `unmarked`, `dropMark_encode`, `unmarked_digits`: marks.
* **`decode_eq_ok_iff`**, `exists_decode`, `decode_digits`, `decodeExactly_eq_ok_iff`: what is read are an
  even number of digits, behind a mark or none.
* `digits_encode`, `number_nibbles`: the two digits of each byte.
* `encode_eq_map`: the digits of bytes, one for each value.
* `trim_prefixed`: what has been written has no blanks at its ends.
-/

namespace SlotIndex.Hex

/-- A character that is a digit of either case, with its value. -/
def IsDigit (c : Char) (n : Nat) : Prop :=
  c.toNat < 0x80 ∧ value? (UInt8.ofNat c.toNat) = some n

/-- A text of digits with their values. -/
abbrev Digits : List Char → List Nat → Prop := Text.Digits IsDigit

instance (c : Char) (n : Nat) : Decidable (IsDigit c n) := inferInstanceAs (Decidable (_ ∧ _))

/-- The number that digit values write in base 16. -/
def number (values : List Nat) : Nat := values.foldl (fun n d => 16 * n + d) 0

/-! ## Digits -/

/-- A digit is an octet up to the letter `f`, and its value is below 16. -/
theorem value?_bounds {b : UInt8} {n : Nat} (h : value? b = some n) : b.toNat ≤ 102 ∧ n < 16 := by
  simp only [value?, Bool.and_eq_true, decide_eq_true_eq, UInt8.le_iff_toNat_le] at h
  have h₁ : (57 : UInt8).toNat = 57 := rfl
  have h₂ : (102 : UInt8).toNat = 102 := rfl
  have h₃ : (70 : UInt8).toNat = 70 := rfl
  split at h
  · cases h
    omega
  · split at h
    · cases h
      omega
    · split at h
      · cases h
        omega
      · contradiction

theorem value?_lt {b : UInt8} {n : Nat} (h : value? b = some n) : n < 16 := (value?_bounds h).2

theorem IsDigit.octets {c : Char} {n : Nat} (h : IsDigit c n) :
    String.utf8EncodeChar c = [UInt8.ofNat c.toNat] := by
  have hc : c.val.toNat ≤ 0x7F := Nat.le_of_lt_succ h.1
  rw [String.utf8EncodeChar, if_pos hc]
  rfl

/-- A digit is no other octet. -/
theorem IsDigit.octet_ne {c : Char} {n : Nat} (h : IsDigit c n) {b : UInt8} (hb : value? b = none) :
    UInt8.ofNat c.toNat ≠ b := by
  rintro rfl
  rw [h.2] at hb
  contradiction

theorem isDigit_zero : IsDigit '0' 0 := ⟨by decide, by decide⟩

/-- What holds of the characters of all codes with a value holds of digits. -/
theorem IsDigit.of_codes {P : Char → Prop}
    (hall : ∀ k : Fin 128, (value? (UInt8.ofNat k)).isSome = true → P (Char.ofNat k)) {c : Char} {n : Nat}
    (h : IsDigit c n) : P c := by
  have hc := hall ⟨c.toNat, h.1⟩ (by simp only [h.2, Option.isSome_some])
  rwa [Char.ofNat_toNat] at hc

theorem IsDigit.not_blank {c : Char} {n : Nat} (h : IsDigit c n) : Text.isBlank c = false :=
  IsDigit.of_codes (P := fun c => Text.isBlank c = false) (by decide) h

/-- A character that is no digit is not among digits. -/
theorem Digits.not_mem {text : List Char} {values : List Nat} (h : Digits text values) {c : Char}
    (hc : value? (UInt8.ofNat c.toNat) = none) : c ∉ text := fun hmem =>
  h.forall_mem (P := (· ≠ c)) (fun hd heq => hd.octet_ne (heq ▸ hc) rfl) c hmem rfl

theorem isDigit_digit {n : Nat} (h : n < 16) : IsDigit (digit n) n := by
  have hall : ∀ n : Fin 16, (digit n).toNat < 0x80 ∧
      value? (UInt8.ofNat (digit n).toNat) = some (n : Nat) := by decide
  exact hall ⟨n, h⟩

theorem length_encode {text : List Char} {values : List Nat} (h : Digits text values) :
    (Utf8.encode text).length = text.length := by
  induction h with
  | nil => rfl
  | cons hc _ ih =>
    rw [Utf8.encode, List.flatMap_cons, hc.octets, List.length_append, List.length_singleton,
      List.length_cons, Nat.add_comm]
    exact congrArg (· + 1) ih

/-! ## Reading -/

/-- Digits are read in pairs, and the bytes write the number of the digits, whatever stands in front of
them. -/
theorem pairs_digits {text : List Char} {values : List Nat} (h : Digits text values)
    (heven : text.length % 2 = 0) (position : Nat) :
    ∃ bytes, pairs position (Utf8.encode text) = .ok bytes ∧ 2 * bytes.length = text.length ∧
      ∀ n, bytes.foldl (fun n b => 256 * n + b.toNat) n = values.foldl (fun n d => 16 * n + d) n := by
  match text, values, h with
  | [], [], .nil => exact ⟨[], rfl, rfl, fun _ => rfl⟩
  | [_], _, .cons _ .nil => contradiction
  | c :: d :: text, m :: k :: values, .cons hc (.cons hd h) =>
    have hrest : text.length % 2 = 0 := by
      simp only [List.length_cons] at heven
      omega
    obtain ⟨bytes, hbytes, hlength, hfold⟩ := pairs_digits h hrest (position + 2)
    have hm := value?_lt hc.2
    have hk := value?_lt hd.2
    refine ⟨UInt8.ofNat (16 * m + k) :: bytes, ?_, ?_, fun n => ?_⟩
    · rw [Utf8.encode, List.flatMap_cons, List.flatMap_cons, hc.octets, hd.octets]
      simp only [List.singleton_append, pairs, digitAt, hc.2, hd.2]
      rw [← Utf8.encode, hbytes]
    · rw [List.length_cons, List.length_cons, List.length_cons, ← hlength]
      omega
    · have hlt : 16 * m + k < 256 := by omega
      have hbyte : (UInt8.ofNat (16 * m + k)).toNat = 16 * m + k := UInt8.toNat_ofNat_of_lt' hlt
      have hstep : 256 * n + (16 * m + k) = 16 * (16 * n + m) + k := by omega
      rw [List.foldl_cons, List.foldl_cons, List.foldl_cons, hbyte, hstep]
      exact hfold _

/-- Octets that are all digits are those of a text of digits. -/
theorem exists_digits_of_octets {text : List Char} (h : ∀ b ∈ Utf8.encode text, (value? b).isSome = true) :
    ∃ values, Digits text values := by
  induction text with
  | nil => exact ⟨[], .nil⟩
  | cons c text ih =>
    rw [Utf8.encode_cons, List.forall_mem_append] at h
    obtain ⟨hc, htext⟩ := h
    obtain ⟨values, hvalues⟩ := ih htext
    obtain ⟨b, rest, hoctets, hlead⟩ := Utf8.exists_lead c
    rw [hoctets, List.forall_mem_cons] at hc
    obtain ⟨n, hn⟩ := Option.isSome_iff_exists.1 hc.1
    obtain ⟨hlt, hcode, -⟩ | ⟨-, hle⟩ := hlead
    · refine ⟨n :: values, .cons ⟨hlt, ?_⟩ hvalues⟩
      rw [← hcode, UInt8.ofNat_toNat, hn]
    · have hsmall := (value?_bounds hn).1
      omega

/-- Octets that are read in pairs are all digits. -/
theorem isSome_value?_of_pairs {position : Nat} {octets bytes : List UInt8}
    (h : pairs position octets = .ok bytes) (heven : octets.length % 2 = 0) :
    ∀ b ∈ octets, (value? b).isSome = true := by
  match octets with
  | [] => exact fun b hb => absurd hb List.not_mem_nil
  | [_] => contradiction
  | high :: low :: rest =>
    have hrest : rest.length % 2 = 0 := by
      simp only [List.length_cons] at heven
      omega
    have hdigit : ∀ {position n b}, digitAt position b = .ok n → (value? b).isSome = true := by
      intro position n b hb
      rw [digitAt] at hb
      cases hvalue : value? b with
      | none => rw [hvalue] at hb; contradiction
      | some => rfl
    rw [pairs] at h
    split at h
    · next hhigh hlow hmore =>
      rw [List.forall_mem_cons, List.forall_mem_cons]
      exact ⟨hdigit hhigh, hdigit hlow, isSome_value?_of_pairs hmore hrest⟩
    · contradiction
    · contradiction
    · contradiction

/-! ## Marks -/

/-- A text without the mark in front of it, if it has one. -/
def unmarked (text : List Char) : List Char := (afterHexMark? text).getD text

/-- A mark is dropped from the octets of a text as it is from the text. -/
theorem dropMark_encode (text : List Char) :
    dropMark (Utf8.encode text) = Utf8.encode (unmarked text) := by
  have hx : ∀ {letter : UInt8} {rest : List UInt8}, letter.toNat < 0x80 →
      Utf8.encode text = 48 :: letter :: rest →
      ∃ tail, text = '0' :: Char.ofNat letter.toNat :: tail := by
    intro letter rest hletter h
    obtain ⟨c, tail, rfl, hc, hmore⟩ := Utf8.exists_cons_of_encode h (by decide)
    obtain ⟨d, tail, rfl, hd, -⟩ := Utf8.exists_cons_of_encode hmore hletter
    exact ⟨tail, by rw [← hd, Char.ofNat_toNat, ← Char.ofNat_toNat c, hc]; rfl⟩
  unfold unmarked afterHexMark?
  split
  · rfl
  · rfl
  · next hnotx hnotX =>
    unfold dropMark
    split
    · next h =>
      obtain ⟨tail, htext⟩ := hx (by decide) h
      exact absurd htext (hnotx tail)
    · next h =>
      obtain ⟨tail, htext⟩ := hx (by decide) h
      exact absurd htext (hnotX tail)
    · rfl

/-- A mark is two octets. -/
theorem length_encode_mod_two (text : List Char) :
    (Utf8.encode (unmarked text)).length % 2 = (Utf8.encode text).length % 2 := by
  unfold unmarked afterHexMark?
  split
  · next rest =>
    change _ = ((Utf8.encode rest).length + 1 + 1) % 2
    rw [Option.getD_some]
    omega
  · next rest =>
    change _ = ((Utf8.encode rest).length + 1 + 1) % 2
    rw [Option.getD_some]
    omega
  · rfl

/-- No digits look like a mark. -/
theorem afterHexMark?_digits {text : List Char} {values : List Nat} (h : Digits text values) :
    afterHexMark? text = none := by
  unfold afterHexMark?
  split
  · obtain _ | ⟨-, hx | ⟨hx, -⟩⟩ := h
    exact absurd rfl (hx.octet_ne (b := 120) (by decide))
  · obtain _ | ⟨-, hx | ⟨hx, -⟩⟩ := h
    exact absurd rfl (hx.octet_ne (b := 88) (by decide))
  · rfl

theorem unmarked_digits {text : List Char} {values : List Nat} (h : Digits text values) :
    unmarked text = text := by
  rw [unmarked, afterHexMark?_digits h, Option.getD_none]

/-- **What is read as bytes**: an even number of digits, behind a mark or none, that write the number of
the bytes. -/
theorem decode_eq_ok_iff {text : List Char} {bytes : List UInt8} :
    decode text = .ok bytes ↔ ∃ values, Digits (unmarked text) values ∧
      2 * bytes.length = (unmarked text).length ∧
      BigEndian.toNat bytes = number values := by
  have hmod := length_encode_mod_two text
  rw [decode]
  simp only [dropMark_encode]
  generalize unmarked text = digits at *
  constructor
  · intro h
    split at h
    · contradiction
    · have heven : (Utf8.encode digits).length % 2 = 0 := by omega
      obtain ⟨values, hvalues⟩ := exists_digits_of_octets (isSome_value?_of_pairs h heven)
      rw [length_encode hvalues] at heven
      obtain ⟨bytes', hbytes, hlength, hfold⟩ := pairs_digits hvalues heven 0
      cases h.symm.trans hbytes
      exact ⟨values, hvalues, hlength, hfold 0⟩
  · rintro ⟨values, hvalues, hlength, hnumber⟩
    rw [length_encode hvalues] at hmod
    obtain ⟨bytes', hbytes, hlength', hfold⟩ := pairs_digits hvalues (by omega) 0
    have hsame : bytes' = bytes :=
      BigEndian.toNat_injective (by omega) ((hfold 0).trans hnumber.symm)
    rw [if_neg (by omega), hbytes, hsame]

/-- An even number of digits is read, behind a mark or none. -/
theorem exists_decode {text : List Char} {values : List Nat} (h : Digits (unmarked text) values)
    (heven : (unmarked text).length % 2 = 0) :
    ∃ bytes, decode text = .ok bytes ∧ 2 * bytes.length = (unmarked text).length ∧
      BigEndian.toNat bytes = number values := by
  obtain ⟨bytes, -, hlength, hfold⟩ := pairs_digits h heven 0
  exact ⟨bytes, decode_eq_ok_iff.2 ⟨values, h, hlength, hfold 0⟩, hlength, hfold 0⟩

theorem decode_digits {text : List Char} {values : List Nat} (h : Digits text values)
    (heven : text.length % 2 = 0) :
    ∃ bytes, decode text = .ok bytes ∧ 2 * bytes.length = text.length ∧
      BigEndian.toNat bytes = number values := by
  have hdecode := @exists_decode text values
  rw [unmarked_digits h] at hdecode
  exact hdecode h heven

/-- What is read as a fixed number of bytes is what is read as bytes and has this length. -/
theorem decodeExactly_eq_ok_iff {n : Nat} {text : List Char} {bytes : List UInt8} :
    decodeExactly n text = .ok bytes ↔ decode text = .ok bytes ∧ bytes.length = n := by
  have hlength : decode text = .ok bytes →
      (dropMark (Utf8.encode text)).length = 2 * bytes.length := by
    intro h
    obtain ⟨values, hvalues, hbytes, -⟩ := decode_eq_ok_iff.1 h
    rw [dropMark_encode, length_encode hvalues, hbytes]
  rw [decode] at hlength ⊢
  rw [decodeExactly]
  by_cases hodd : (Utf8.encode text).length % 2 = 1
  · simp [hodd]
  · simp only [hodd, if_false] at hlength ⊢
    constructor
    · intro h
      split at h
      · next hdigits =>
        have := hlength h
        exact ⟨h, by omega⟩
      · contradiction
    · rintro ⟨h, rfl⟩
      rw [if_pos (hlength h), h]

/-! ## Writing -/

theorem digits_encode (bytes : List UInt8) : Digits (encode bytes) (nibbles bytes) := by
  induction bytes with
  | nil => exact .nil
  | cons b bytes ih =>
    have hb : b.toNat < 256 := b.toNat_lt
    exact .cons (isDigit_digit (by omega)) (.cons (isDigit_digit (by omega)) ih)

theorem number_nibbles (bytes : List UInt8) : number (nibbles bytes) = BigEndian.toNat bytes := by
  have hfold : ∀ n, (nibbles bytes).foldl (fun n d => 16 * n + d) n =
      bytes.foldl (fun n b => 256 * n + b.toNat) n := by
    induction bytes with
    | nil => exact fun _ => rfl
    | cons b bytes ih =>
      intro n
      have hstep : 16 * (16 * n + b.toNat / 16) + b.toNat % 16 = 256 * n + b.toNat := by omega
      rw [nibbles, List.flatMap_cons, List.cons_append, List.cons_append, List.nil_append,
        List.foldl_cons, List.foldl_cons, List.foldl_cons, hstep]
      exact ih _
  exact hfold 0

theorem encode_eq_map (bytes : List UInt8) : encode bytes = (nibbles bytes).map digit := by
  rw [nibbles, List.map_flatMap]
  rfl

theorem nibbles_lt (bytes : List UInt8) : ∀ v ∈ nibbles bytes, v < 16 := by
  intro v hv
  obtain ⟨b, -, hv⟩ := List.mem_flatMap.1 hv
  have hb : b.toNat < 256 := b.toNat_lt
  rcases List.mem_cons.1 hv with rfl | hv
  · omega
  · rw [List.mem_singleton.1 hv]
    omega

theorem length_encode_bytes (bytes : List UInt8) : (encode bytes).length = 2 * bytes.length := by
  induction bytes with
  | nil => rfl
  | cons b bytes ih =>
    rw [encode, List.flatMap_cons, List.length_append, ← encode, ih, List.length_cons]
    change 2 + 2 * bytes.length = 2 * (bytes.length + 1)
    omega

theorem length_nibbles (bytes : List UInt8) : (nibbles bytes).length = 2 * bytes.length := by
  rw [← length_encode_bytes, encode_eq_map, List.length_map]

/-- A text that has been written has no blanks at its ends. -/
theorem trim_prefixed (bytes : List UInt8) :
    Text.trim (prefixed bytes).toList = '0' :: 'x' :: encode bytes := by
  rw [prefixed, String.toList_ofList]
  refine Text.trim_of_no_blanks ?_
  rw [List.forall_mem_cons, List.forall_mem_cons]
  exact ⟨rfl, rfl, (digits_encode bytes).forall_mem IsDigit.not_blank⟩

end SlotIndex.Hex
