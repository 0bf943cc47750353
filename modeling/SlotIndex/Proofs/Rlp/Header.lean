import SlotIndex.Rlp

/-!
# Headers

A header that is written is read back, and a header that is read is the one that would be written,
so that a length has one form. The only value without a header is a string of one byte below `0x80`.

* `toNat_numberBytes`, `numberBytes_toNat`: the bytes of a number below `UInt64.size`.
* `first_byte_cases`: what the first byte of a header can say; `readHeader_small`, `readHeader_short`
  and `readHeader_long` read on from there.
* `Header.Fits`: the headers that can stand in front of some bytes.
* **`readHeader_writeHeader`**, **`readHeader_eq_ok`**.
-/

namespace SlotIndex.Rlp

theorem toNat_numberBytes {n : Nat} (h : n < UInt64.size) : BigEndian.toNat (numberBytes n) = n := by
  rw [numberBytes, BigEndian.toNat_significant, BigEndian.toNat_ofNat]
  exact Nat.mod_eq_of_lt h

theorem numberBytes_toNat {bytes : List UInt8} (hl : bytes.length ≤ 8)
    (hz : bytes.head? ≠ some 0) : numberBytes (BigEndian.toNat bytes) = bytes := by
  rw [numberBytes, BigEndian.ofNat_toNat_of_le hl, BigEndian.significant_replicate_append,
    BigEndian.significant_of_head hz]

theorem length_numberBytes_le (n : Nat) : (numberBytes n).length ≤ 8 := by
  have := BigEndian.length_significant_le (BigEndian.ofNat 8 n)
  rwa [BigEndian.length_ofNat] at this

theorem head_numberBytes (n : Nat) : (numberBytes n).head? ≠ some 0 :=
  BigEndian.head_significant _

theorem length_numberBytes_pos {n : Nat} (hn : ¬ n < 56) (hlt : n < UInt64.size) :
    1 ≤ (numberBytes n).length := by
  have h := toNat_numberBytes hlt
  cases hb : numberBytes n with
  | nil => rw [hb, BigEndian.toNat_nil] at h; omega
  | cons b bytes => simp

theorem toNat_lt_of_length_le {bytes : List UInt8} (h : bytes.length ≤ 8) :
    BigEndian.toNat bytes < UInt64.size := by
  calc BigEndian.toNat bytes < Nat.pow 256 bytes.length := BigEndian.toNat_lt bytes
    _ ≤ Nat.pow 256 8 := Nat.pow_le_pow_right (by decide) h

/-- A header that can stand in front of bytes: the length can be written, the payload lies ahead, and
no single byte below `0x80` is announced as a string. -/
structure Header.Fits (h : Header) (rest : List UInt8) : Prop where
  lt : h.length < UInt64.size
  le : h.length ≤ rest.length
  single : h.isList = false → h.length = 1 → ∀ c ∈ rest.head?, ¬ c < 0x80

/-- The header at the front, by the number that its first byte writes. -/
theorem readHeader_cons (b : UInt8) (rest : List UInt8) :
    readHeader (b :: rest) =
      if b.toNat < 0x80 then .ok (⟨false, 1⟩, b :: rest)
      else if b.toNat < 0xB8 then
        if b.toNat = 0x81 then
          match rest with
          | [] => .error .inputTooShort
          | c :: _ => if c < 0x80 then .error .nonCanonicalSingleByte else .ok (⟨false, 1⟩, rest)
        else Header.check ⟨false, b.toNat - 0x80⟩ rest
      else if b.toNat < 0xC0 then readLongHeader false (b.toNat - 0xB7) rest
      else if b.toNat < 0xF8 then Header.check ⟨true, b.toNat - 0xC0⟩ rest
      else readLongHeader true (b.toNat - 0xF7) rest := by
  have h (n : UInt8) : b < n ↔ b.toNat < n.toNat := UInt8.lt_iff_toNat_lt
  have h' (n : UInt8) : b = n ↔ b.toNat = n.toNat := UInt8.toNat_inj.symm
  simp only [readHeader, h, h']
  rfl

theorem readLongHeader_numberBytes (isList : Bool) {n : Nat} (hn : ¬ n < 56)
    (hlt : n < UInt64.size) (rest : List UInt8) :
    readLongHeader isList (numberBytes n).length (numberBytes n ++ rest) =
      Header.check ⟨isList, n⟩ rest := by
  have hne : numberBytes n ≠ [] := List.ne_nil_of_length_pos (length_numberBytes_pos hn hlt)
  have hz : (numberBytes n ++ rest).head? ≠ some 0 := by
    rw [List.head?_append, Option.or_of_isSome (by simpa using hne)]
    exact head_numberBytes n
  have hl : ¬ (numberBytes n ++ rest).length < (numberBytes n).length := by simp
  rw [readLongHeader, if_neg hl, if_neg hz, List.take_append_length, List.drop_append_length,
    toNat_numberBytes hlt]
  simp only [if_neg hn]

/-- What is added to the length in the first byte of a header. -/
def mark (isList : Bool) : Nat := if isList then 0xC0 else 0x80

@[simp] theorem mark_false : mark false = 0x80 := rfl

@[simp] theorem mark_true : mark true = 0xC0 := rfl

theorem mark_cases (isList : Bool) :
    (isList = false ∧ mark isList = 0x80) ∨ (isList = true ∧ mark isList = 0xC0) := by
  cases isList <;> simp

theorem writeHeader_short {isList : Bool} {n : Nat} {b : UInt8} (hn : n < 56)
    (hb : b.toNat = mark isList + n) : writeHeader isList n = [b] := by
  simp only [writeHeader, if_pos hn]
  rw [← UInt8.ofNat_toNat (x := b), hb, mark]

theorem writeHeader_long {isList : Bool} {n : Nat} {b : UInt8} (hn : ¬ n < 56)
    (hb : b.toNat = mark isList + 55 + (numberBytes n).length) :
    writeHeader isList n = b :: numberBytes n := by
  simp only [writeHeader, if_neg hn]
  rw [← UInt8.ofNat_toNat (x := b), hb, mark]

theorem exists_byte {n : Nat} (h : n < 256) : ∃ b : UInt8, b.toNat = n :=
  ⟨UInt8.ofNat n, by rw [UInt8.toNat_ofNat', Nat.mod_eq_of_lt h]⟩

theorem readHeader_small {b : UInt8} (hb : b.toNat < 0x80) (rest : List UInt8) :
    readHeader (b :: rest) = .ok (⟨false, 1⟩, b :: rest) := by
  rw [readHeader_cons, if_pos hb]

theorem readHeader_short {isList : Bool} {n : Nat} {b : UInt8} (hn : n < 56)
    (hb : b.toNat = mark isList + n) (hs : isList = true ∨ n ≠ 1) (rest : List UInt8) :
    readHeader (b :: rest) = Header.check ⟨isList, n⟩ rest := by
  rw [readHeader_cons]
  rcases mark_cases isList with ⟨rfl, hm⟩ | ⟨rfl, hm⟩
  · have hn1 : n ≠ 1 := by simpa using hs
    rw [if_neg (by omega), if_pos (by omega), if_neg (by omega),
      show b.toNat - 0x80 = n by omega]
  · rw [if_neg (by omega), if_neg (by omega), if_neg (by omega), if_pos (by omega),
      show b.toNat - 0xC0 = n by omega]

theorem readHeader_long {isList : Bool} {size : Nat} {b : UInt8} (h1 : 1 ≤ size) (h8 : size ≤ 8)
    (hb : b.toNat = mark isList + 55 + size) (rest : List UInt8) :
    readHeader (b :: rest) = readLongHeader isList size rest := by
  rw [readHeader_cons]
  rcases mark_cases isList with ⟨rfl, hm⟩ | ⟨rfl, hm⟩
  · rw [if_neg (by omega), if_neg (by omega), if_pos (by omega),
      show b.toNat - 0xB7 = size by omega]
  · rw [if_neg (by omega), if_neg (by omega), if_neg (by omega), if_neg (by omega),
      show b.toNat - 0xF7 = size by omega]

/-- What the first byte of a header can say. -/
theorem first_byte_cases (b : UInt8) :
    b.toNat < 0x80 ∨ b.toNat = 0x81 ∨
      (∃ isList n, n < 56 ∧ b.toNat = mark isList + n ∧ (isList = true ∨ n ≠ 1)) ∨
      ∃ isList size, 1 ≤ size ∧ size ≤ 8 ∧ b.toNat = mark isList + 55 + size := by
  have hb := b.toNat_lt
  by_cases h1 : b.toNat < 0x80
  · exact .inl h1
  by_cases h2 : b.toNat = 0x81
  · exact .inr (.inl h2)
  refine .inr (.inr ?_)
  by_cases h3 : b.toNat < 0xB8
  · exact .inl ⟨false, b.toNat - 0x80, by omega, by rw [mark_false]; omega, .inr (by omega)⟩
  by_cases h4 : b.toNat < 0xC0
  · exact .inr ⟨false, b.toNat - 0xB7, by omega, by omega, by rw [mark_false]; omega⟩
  by_cases h5 : b.toNat < 0xF8
  · exact .inl ⟨true, b.toNat - 0xC0, by omega, by rw [mark_true]; omega, .inl rfl⟩
  · exact .inr ⟨true, b.toNat - 0xF7, by omega, by omega, by rw [mark_true]; omega⟩

theorem check_eq_ok {h k : Header} {rest behind : List UInt8} :
    Header.check h rest = .ok (k, behind) ↔ h.length ≤ rest.length ∧ h = k ∧ rest = behind := by
  simp only [Header.check]
  split
  · simp only [reduceCtorEq, false_iff]; omega
  · simp only [Except.ok.injEq, Prod.mk.injEq]
    exact ⟨fun h => ⟨by omega, h⟩, fun h => h.2⟩

/-- **A header that is written is read back.** -/
theorem readHeader_writeHeader {h : Header} {rest : List UInt8} (hf : h.Fits rest) :
    readHeader (writeHeader h.isList h.length ++ rest) = .ok (h, rest) := by
  obtain ⟨isList, n⟩ := h
  obtain ⟨hlt, hle, hs⟩ := hf
  simp only at hlt hle hs ⊢
  have hm := mark_cases isList
  by_cases hn : n < 56
  · obtain ⟨b, hb⟩ := exists_byte (n := mark isList + n) (by omega)
    rw [writeHeader_short hn hb, List.singleton_append]
    by_cases h1 : isList = true ∨ n ≠ 1
    · rw [readHeader_short hn hb h1, check_eq_ok]
      exact ⟨hle, rfl, rfl⟩
    · -- one byte of a string, which is not its own form
      obtain ⟨rfl, rfl⟩ : isList = false ∧ n = 1 := by simpa using h1
      obtain ⟨c, rest, rfl⟩ := List.exists_cons_of_length_pos hle
      have hc : ¬ c < 0x80 := hs rfl rfl c rfl
      have hb' : b.toNat = 0x81 := by rw [hb]; rfl
      rw [readHeader_cons, if_neg (by omega), if_pos (by omega), if_pos hb']
      simp only [if_neg hc]
  · have hl := length_numberBytes_le n
    obtain ⟨b, hb⟩ := exists_byte (n := mark isList + 55 + (numberBytes n).length) (by omega)
    rw [writeHeader_long hn hb, List.cons_append,
      readHeader_long (length_numberBytes_pos hn hlt) hl hb, readLongHeader_numberBytes isList hn hlt,
      check_eq_ok]
    exact ⟨hle, rfl, rfl⟩

theorem readLongHeader_eq_ok {isList : Bool} {size : Nat} {rest behind : List UInt8} {h : Header}
    (h1 : 1 ≤ size) (h8 : size ≤ 8) (hr : readLongHeader isList size rest = .ok (h, behind)) :
    h.isList = isList ∧ ¬ h.length < 56 ∧ h.length < UInt64.size ∧ h.length ≤ behind.length ∧
      (numberBytes h.length).length = size ∧ rest = numberBytes h.length ++ behind := by
  simp only [readLongHeader] at hr
  split at hr
  · contradiction
  split at hr
  · contradiction
  next hsize hzero =>
  split at hr
  · contradiction
  next hn =>
  obtain ⟨hle, rfl, rfl⟩ := check_eq_ok.1 hr
  have hlen : (rest.take size).length = size := by rw [List.length_take]; omega
  have hz : (rest.take size).head? ≠ some 0 := by
    rwa [List.head?_take, if_neg (by omega)]
  have hnum : numberBytes (BigEndian.toNat (rest.take size)) = rest.take size :=
    numberBytes_toNat (by omega) hz
  exact ⟨rfl, hn, toNat_lt_of_length_le (by omega), hle, by rw [hnum, hlen],
    by rw [hnum, List.take_append_drop]⟩

/-- **A header that is read is the one that would be written.** -/
theorem readHeader_eq_ok {input behind : List UInt8} {h : Header}
    (hr : readHeader input = .ok (h, behind)) :
    (h = ⟨false, 1⟩ ∧ behind = input ∧ ∃ b ∈ input.head?, b < 0x80) ∨
      (h.Fits behind ∧ input = writeHeader h.isList h.length ++ behind) := by
  cases input with
  | nil => simp [readHeader] at hr
  | cons b rest =>
    rcases first_byte_cases b with hb | hb | ⟨isList, n, hn, hb, hs⟩ | ⟨isList, size, h1, h8, hb⟩
    · rw [readHeader_small hb] at hr
      cases hr
      exact .inl ⟨rfl, rfl, b, rfl, UInt8.lt_iff_toNat_lt.2 hb⟩
    · rw [readHeader_cons, if_neg (by omega), if_pos (by omega), if_pos hb] at hr
      cases rest with
      | nil => contradiction
      | cons c rest =>
        simp only at hr
        split at hr
        · contradiction
        next hc =>
        cases hr
        refine .inr ⟨⟨by decide, by simp, fun _ _ d hd => ?_⟩, ?_⟩
        · cases hd
          exact hc
        · rw [writeHeader_short (b := b) (by decide) (by rw [hb]; rfl)]
          rfl
    · rw [readHeader_short hn hb hs, check_eq_ok] at hr
      obtain ⟨hle, rfl, rfl⟩ := hr
      refine .inr ⟨⟨Nat.lt_trans hn (by decide), hle, fun h0 h1 => ?_⟩, ?_⟩
      · rcases hs with hs | hs
        · exact absurd (h0.symm.trans hs) (by decide)
        · exact absurd h1 hs
      · rw [writeHeader_short hn hb]
        rfl
    · rw [readHeader_long h1 h8 hb] at hr
      obtain ⟨rfl, hn, hlt, hle, hsize, rfl⟩ := readLongHeader_eq_ok h1 h8 hr
      refine .inr ⟨⟨hlt, hle, fun _ h1 => absurd h1 (by omega)⟩, ?_⟩
      rw [writeHeader_long (b := b) hn (by rw [hb, hsize])]
      rfl

end SlotIndex.Rlp
