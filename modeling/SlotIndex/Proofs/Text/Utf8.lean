import SlotIndex.Text.Utf8

/-!
# UTF-8 is read as it is written

A list of octets is read as a text exactly if it is what the text is written as. So the octets that are
refused are those that no text is written as.

* `Sequence`: the octets of one character, with its code point.
* `Sequence.decodeFrom_append`, `exists_sequence_of_decodeFrom`: characters are what is read.
* `Sequence.utf8EncodeChar`, `sequence_utf8EncodeChar`: characters are what is written.
* `exists_lead`: the first octet of a character.
* **`decode_eq_ok_iff`**: reading and writing are the two directions of one relation.
-/

namespace SlotIndex.Utf8

/-! ## Octets inside a character -/

theorem isContinuation_iff {b : UInt8} :
    isContinuation b = true ↔ 0x80 ≤ b.toNat ∧ b.toNat ≤ 0xBF := by
  rw [isContinuation, Bool.and_eq_true, decide_eq_true_eq, decide_eq_true_eq,
    UInt8.le_iff_toNat_le, UInt8.le_iff_toNat_le]
  rfl

theorem isSecondOfThree_iff {a b : UInt8} : isSecondOfThree a b = true ↔
    (0x80 ≤ b.toNat ∧ b.toNat ≤ 0xBF) ∧ (a.toNat = 0xE0 → 0xA0 ≤ b.toNat) ∧
      (a.toNat = 0xED → b.toNat ≤ 0x9F) := by
  have hE0 : a = 0xE0 ↔ a.toNat = 0xE0 := UInt8.toNat_inj.symm
  have hED : a = 0xED ↔ a.toNat = 0xED := UInt8.toNat_inj.symm
  simp only [isSecondOfThree, hE0, hED, Bool.and_eq_true]
  split <;> split <;>
    simp only [decide_eq_true_eq, UInt8.le_iff_toNat_le, UInt8.reduceToNat] <;> omega

theorem isSecondOfFour_iff {a b : UInt8} : isSecondOfFour a b = true ↔
    (0x80 ≤ b.toNat ∧ b.toNat ≤ 0xBF) ∧ (a.toNat = 0xF0 → 0x90 ≤ b.toNat) ∧
      (a.toNat = 0xF4 → b.toNat ≤ 0x8F) := by
  have hF0 : a = 0xF0 ↔ a.toNat = 0xF0 := UInt8.toNat_inj.symm
  have hF4 : a = 0xF4 ↔ a.toNat = 0xF4 := UInt8.toNat_inj.symm
  simp only [isSecondOfFour, hF0, hF4, Bool.and_eq_true]
  split <;> split <;>
    simp only [decide_eq_true_eq, UInt8.le_iff_toNat_le, UInt8.reduceToNat] <;> omega

/-! ## One character -/

/-- The octets of one character, with its code point. -/
inductive Sequence : Nat → List UInt8 → Prop where
  | one {a : UInt8} (ha : a.toNat < 0x80) : Sequence a.toNat [a]
  | two {a b : UInt8} (ha : 0xC2 ≤ a.toNat ∧ a.toNat ≤ 0xDF) (hb : isContinuation b = true) :
    Sequence (64 * (a.toNat % 32) + payload b) [a, b]
  | three {a b c : UInt8} (ha : 0xE0 ≤ a.toNat ∧ a.toNat ≤ 0xEF) (hb : isSecondOfThree a b = true)
    (hc : isContinuation c = true) :
    Sequence (4096 * (a.toNat % 16) + 64 * payload b + payload c) [a, b, c]
  | four {a b c d : UInt8} (ha : 0xF0 ≤ a.toNat ∧ a.toNat ≤ 0xF4) (hb : isSecondOfFour a b = true)
    (hc : isContinuation c = true) (hd : isContinuation d = true) :
    Sequence (262144 * (a.toNat % 8) + 4096 * payload b + 64 * payload c + payload d) [a, b, c, d]

theorem between_iff {low high a : UInt8} :
    (decide (low ≤ a) && decide (a ≤ high)) = true ↔ low.toNat ≤ a.toNat ∧ a.toNat ≤ high.toNat := by
  rw [Bool.and_eq_true, decide_eq_true_eq, decide_eq_true_eq, UInt8.le_iff_toNat_le,
    UInt8.le_iff_toNat_le]

theorem Sequence.decodeFrom_append {v : Nat} {octets : List UInt8} (h : Sequence v octets)
    (index : Nat) (rest : List UInt8) :
    decodeFrom index (octets ++ rest) =
      (Char.ofNat v :: ·) <$> decodeFrom (index + octets.length) rest := by
  have hlead : ∀ {a : UInt8}, a < 0x80 ↔ a.toNat < 0x80 := UInt8.lt_iff_toNat_lt
  cases h with
  | one ha =>
    rw [List.cons_append, List.nil_append, decodeFrom.eq_def]
    simp only [hlead, ha, if_true]
    rfl
  | two ha hb =>
    have h₁ := ha.1
    rw [List.cons_append, List.cons_append, List.nil_append, decodeFrom.eq_def]
    simp only [hlead, between_iff, UInt8.reduceToNat, ha, and_self, if_true, hb]
    rw [if_neg (by omega)]
    rfl
  | three ha hb hc =>
    have h₁ := ha.1
    rw [List.cons_append, List.cons_append, List.cons_append, List.nil_append, decodeFrom.eq_def]
    simp only [hlead, between_iff, UInt8.reduceToNat, ha, and_self, if_true, hb, hc, Bool.not_true,
      Bool.false_eq_true, if_false]
    rw [if_neg (by omega), if_neg (by omega)]
    rfl
  | four ha hb hc hd =>
    have h₁ := ha.1
    rw [List.cons_append, List.cons_append, List.cons_append, List.cons_append, List.nil_append,
      decodeFrom.eq_def]
    simp only [hlead, between_iff, UInt8.reduceToNat, ha, and_self, if_true, hb, hc, hd,
      Bool.not_true, Bool.false_eq_true, if_false]
    rw [if_neg (by omega), if_neg (by omega), if_neg (by omega)]
    rfl

/-- What is read as a text that is not empty begins with a character. -/
theorem exists_sequence_of_decodeFrom {index : Nat} {octets : List UInt8} {text : List Char}
    (h : decodeFrom index octets = .ok text) :
    (octets = [] ∧ text = []) ∨ ∃ v seq rest, Sequence v seq ∧ octets = seq ++ rest ∧
      (Char.ofNat v :: ·) <$> decodeFrom (index + seq.length) rest = .ok text := by
  revert h
  fun_cases decodeFrom index octets
  case case1 => exact fun h => .inl ⟨rfl, (Except.ok.inj h).symm⟩
  case case2 a rest ha =>
    exact fun h => .inr ⟨_, [a], rest, .one (UInt8.lt_iff_toNat_lt.1 ha), rfl, h⟩
  case case4 a _ ha b rest hb =>
    exact fun h => .inr ⟨_, [a, b], rest, .two (between_iff.1 ha) hb, rfl, h⟩
  case case9 a _ _ ha b hb c rest hc =>
    rw [Bool.not_eq_true, Bool.not_eq_false'] at hb
    exact fun h => .inr ⟨_, [a, b, c], rest, .three (between_iff.1 ha) hb hc, rfl, h⟩
  case case16 a _ _ _ ha b hb c hc d rest hd =>
    rw [Bool.not_eq_true, Bool.not_eq_false'] at hb hc
    exact fun h => .inr ⟨_, [a, b, c, d], rest, .four (between_iff.1 ha) hb hc hd, rfl, h⟩
  -- Every other way of reading ends with a fault.
  all_goals exact fun h => nomatch h

theorem utf8EncodeChar_eq (c : Char) : String.utf8EncodeChar c =
    if c.toNat ≤ 0x7F then [UInt8.ofNat c.toNat]
    else if c.toNat ≤ 0x7FF then
      [UInt8.ofNat (c.toNat / 64 % 32 + 0xC0), UInt8.ofNat (c.toNat % 64 + 0x80)]
    else if c.toNat ≤ 0xFFFF then
      [UInt8.ofNat (c.toNat / 4096 % 16 + 0xE0), UInt8.ofNat (c.toNat / 64 % 64 + 0x80),
        UInt8.ofNat (c.toNat % 64 + 0x80)]
    else
      [UInt8.ofNat (c.toNat / 262144 % 8 + 0xF0), UInt8.ofNat (c.toNat / 4096 % 64 + 0x80),
        UInt8.ofNat (c.toNat / 64 % 64 + 0x80), UInt8.ofNat (c.toNat % 64 + 0x80)] := rfl

/-- A character is written as octets that are read as it. -/
theorem Sequence.utf8EncodeChar {v : Nat} {octets : List UInt8} (h : Sequence v octets) :
    String.utf8EncodeChar (Char.ofNat v) = octets := by
  have hoctet : ∀ {n : Nat} {a : UInt8}, n = a.toNat → UInt8.ofNat n = a := by
    rintro n a rfl
    exact UInt8.ofNat_toNat
  have hvalid : v.isValidChar → (Char.ofNat v).toNat = v := by
    intro hv
    rw [Char.ofNat, dif_pos hv]
    exact UInt32.toNat_ofNatLT
  cases h with
  | one ha =>
    rw [utf8EncodeChar_eq, hvalid (.inl (by omega)), if_pos (by omega), hoctet rfl]
  | @two a b ha hb =>
    rw [isContinuation_iff] at hb
    rw [payload] at hvalid ⊢
    rw [utf8EncodeChar_eq, hvalid (.inl (by omega)), if_neg (by omega), if_pos (by omega),
      hoctet (a := a) (by omega), hoctet (a := b) (by omega)]
  | @three a b c ha hb hc =>
    rw [isContinuation_iff] at hc
    rw [isSecondOfThree_iff] at hb
    rw [payload, payload] at hvalid ⊢
    rw [utf8EncodeChar_eq, hvalid (by unfold Nat.isValidChar; omega), if_neg (by omega),
      if_neg (by omega), if_pos (by omega), hoctet (a := a) (by omega), hoctet (a := b) (by omega),
      hoctet (a := c) (by omega)]
  | @four a b c d ha hb hc hd =>
    rw [isContinuation_iff] at hc hd
    rw [isSecondOfFour_iff] at hb
    rw [payload, payload, payload] at hvalid ⊢
    rw [utf8EncodeChar_eq, hvalid (by unfold Nat.isValidChar; omega), if_neg (by omega),
      if_neg (by omega), if_neg (by omega), hoctet (a := a) (by omega), hoctet (a := b) (by omega),
      hoctet (a := c) (by omega), hoctet (a := d) (by omega)]

/-- What a character is written as is read as the character. -/
theorem sequence_utf8EncodeChar (c : Char) : Sequence c.toNat (String.utf8EncodeChar c) := by
  have hvalid : c.toNat.isValidChar := c.valid
  rw [utf8EncodeChar_eq]
  generalize c.toNat = v at hvalid
  have hoctet : ∀ {n : Nat}, n < 256 → (UInt8.ofNat n).toNat = n := fun hn =>
    UInt8.toNat_ofNat_of_lt' hn
  unfold Nat.isValidChar at hvalid
  -- One octet to four, by the size of the code point. Taken apart into octets it is put together again.
  split
  · have hone := Sequence.one (a := UInt8.ofNat v) (by rw [hoctet] <;> omega)
    rwa [hoctet (by omega)] at hone
  · split
    · have htwo := Sequence.two (a := UInt8.ofNat (v / 64 % 32 + 0xC0))
        (b := UInt8.ofNat (v % 64 + 0x80)) (by rw [hoctet] <;> omega)
        (by rw [isContinuation_iff, hoctet] <;> omega)
      rw [payload, hoctet (by omega), hoctet (by omega)] at htwo
      rwa [show 64 * ((v / 64 % 32 + 0xC0) % 32) + (v % 64 + 0x80) % 64 = v by omega] at htwo
    · split
      · have hthree := Sequence.three (a := UInt8.ofNat (v / 4096 % 16 + 0xE0))
          (b := UInt8.ofNat (v / 64 % 64 + 0x80)) (c := UInt8.ofNat (v % 64 + 0x80))
          (by rw [hoctet] <;> omega)
          (by rw [isSecondOfThree_iff, hoctet (by omega), hoctet (by omega)]; omega)
          (by rw [isContinuation_iff, hoctet] <;> omega)
        rw [payload, payload, hoctet (by omega), hoctet (by omega), hoctet (by omega)] at hthree
        rwa [show 4096 * ((v / 4096 % 16 + 0xE0) % 16) + 64 * ((v / 64 % 64 + 0x80) % 64) +
          (v % 64 + 0x80) % 64 = v by omega] at hthree
      · have hfour := Sequence.four (a := UInt8.ofNat (v / 262144 % 8 + 0xF0))
          (b := UInt8.ofNat (v / 4096 % 64 + 0x80)) (c := UInt8.ofNat (v / 64 % 64 + 0x80))
          (d := UInt8.ofNat (v % 64 + 0x80)) (by rw [hoctet] <;> omega)
          (by rw [isSecondOfFour_iff, hoctet (by omega), hoctet (by omega)]; omega)
          (by rw [isContinuation_iff, hoctet] <;> omega) (by rw [isContinuation_iff, hoctet] <;> omega)
        rw [payload, payload, payload, hoctet (by omega), hoctet (by omega), hoctet (by omega),
          hoctet (by omega)] at hfour
        rwa [show 262144 * ((v / 262144 % 8 + 0xF0) % 8) + 4096 * ((v / 4096 % 64 + 0x80) % 64) +
          64 * ((v / 64 % 64 + 0x80) % 64) + (v % 64 + 0x80) % 64 = v by omega] at hfour

/-- What a character is written as is its code point in one octet, or it begins with an octet from `0x80`
on. -/
theorem exists_lead (c : Char) : ∃ b rest, String.utf8EncodeChar c = b :: rest ∧
    (c.toNat < 0x80 ∧ b.toNat = c.toNat ∧ rest = [] ∨ 0x80 ≤ c.toNat ∧ 0x80 ≤ b.toNat) := by
  have hsequence := sequence_utf8EncodeChar c
  generalize String.utf8EncodeChar c = octets at hsequence
  generalize c.toNat = v at hsequence
  cases hsequence with
  | one ha => exact ⟨_, _, rfl, .inl ⟨ha, rfl, rfl⟩⟩
  | two ha hb => exact ⟨_, _, rfl, .inr ⟨by omega, by omega⟩⟩
  | three ha hb hc =>
    rw [isSecondOfThree_iff] at hb
    refine ⟨_, _, rfl, .inr ⟨?_, by omega⟩⟩
    rw [payload]
    omega
  | four ha hb hc hd =>
    rw [isSecondOfFour_iff] at hb
    refine ⟨_, _, rfl, .inr ⟨?_, by omega⟩⟩
    rw [payload]
    omega

/-! ## Texts -/

theorem encode_cons (c : Char) (text : List Char) :
    encode (c :: text) = String.utf8EncodeChar c ++ encode text :=
  List.flatMap_cons

/-- A text whose first octet is below `0x80` begins with the character of this code. -/
theorem exists_cons_of_encode {text : List Char} {b : UInt8} {rest : List UInt8}
    (h : encode text = b :: rest) (hb : b.toNat < 0x80) :
    ∃ c tail, text = c :: tail ∧ c.toNat = b.toNat ∧ encode tail = rest := by
  cases text with
  | nil => contradiction
  | cons c tail =>
    obtain ⟨lead, more, hoctets, hlead⟩ := exists_lead c
    rw [encode_cons, hoctets, List.cons_append, List.cons.injEq] at h
    obtain ⟨rfl, hrest⟩ := h
    obtain ⟨-, hcode, rfl⟩ | ⟨-, hle⟩ := hlead
    · exact ⟨c, tail, rfl, hcode.symm, hrest⟩
    · omega

theorem decodeFrom_encode (index : Nat) (text : List Char) :
    decodeFrom index (encode text) = .ok text := by
  induction text generalizing index with
  | nil => exact decodeFrom.eq_1 index
  | cons c text ih =>
    rw [encode_cons, (sequence_utf8EncodeChar c).decodeFrom_append, ih, Char.ofNat_toNat]
    rfl

theorem encode_of_decodeFrom {index : Nat} {octets : List UInt8} {text : List Char}
    (h : decodeFrom index octets = .ok text) : encode text = octets := by
  induction text generalizing index octets with
  | nil =>
    obtain ⟨rfl, -⟩ | ⟨v, seq, rest, -, -, hrest⟩ := exists_sequence_of_decodeFrom h
    · rfl
    · cases hdecoded : decodeFrom (index + seq.length) rest <;> rw [hdecoded] at hrest <;> cases hrest
  | cons c text ih =>
    obtain ⟨-, hnil⟩ | ⟨v, seq, rest, hseq, rfl, hrest⟩ := exists_sequence_of_decodeFrom h
    · cases hnil
    · cases hdecoded : decodeFrom (index + seq.length) rest with
      | error => rw [hdecoded] at hrest; cases hrest
      | ok text' =>
        rw [hdecoded] at hrest
        cases hrest
        rw [encode_cons, hseq.utf8EncodeChar, ih hdecoded]

/-- **What is read as a text is exactly what the text is written as.** -/
theorem decode_eq_ok_iff {octets : List UInt8} {text : List Char} :
    decode octets = .ok text ↔ encode text = octets := by
  constructor
  · exact encode_of_decodeFrom
  · rintro rfl
    exact decodeFrom_encode 0 text

end SlotIndex.Utf8
