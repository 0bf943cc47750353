import SlotIndex.Proofs.Rlp.Codec

/-!
# Forms that are cut off or go on

A form says in its header how many bytes it has. If it is cut off, wherever that is, no header can be
read: either the header itself is cut off, or the bytes behind it are fewer than it says. Bytes behind a
form belong to no part of it and are left ahead.

* `readHeader_cut_short`, `readHeader_cut_long`: a form that is cut off, by the kind of its header.
* **`readHeader_cut`**, **`readExactly_record_cut`**: wherever a form is cut off, the input is too short.
* **`readExactly_append`**: a form with more behind it is not all there is.
-/

namespace SlotIndex.Rlp

/-! ## Cut off -/

theorem length_lt_of_cut {cut bytes : List UInt8} (h : cut <+: bytes) (hne : cut ≠ bytes) :
    cut.length < bytes.length :=
  Nat.lt_of_le_of_ne h.length_le fun hlength => hne (h.eq_of_length hlength)

theorem check_eq_error {h : Header} {rest : List UInt8} (hlt : rest.length < h.length) :
    Header.check h rest = .error .inputTooShort := if_pos hlt

/-- A header of one byte, with too few bytes behind it. -/
theorem readHeader_cut_short {isList : Bool} {n : Nat} (hn : n < 56) {b : UInt8}
    (hb : b.toNat = mark isList + n) {rest : List UInt8} (hrest : rest.length < n) :
    readHeader (b :: rest) = .error .inputTooShort := by
  by_cases hs : isList = true ∨ n ≠ 1
  · rw [readHeader_short hn hb hs]
    exact check_eq_error hrest
  · -- A byte that is not its own form: nothing stands behind the header.
    obtain ⟨rfl, rfl⟩ : isList = false ∧ n = 1 := by simpa using hs
    obtain rfl : rest = [] := List.eq_nil_of_length_eq_zero (by omega)
    have hb' : b.toNat = 0x81 := hb
    rw [readHeader_cons, if_neg (by omega), if_pos (by omega), if_pos hb']

/-- A header with a length of its own, with a part of that length or too few bytes behind it. -/
theorem readHeader_cut_long {isList : Bool} {payload rest : List UInt8} (hn : ¬ payload.length < 56)
    (hlt : payload.length < UInt64.size) {b : UInt8}
    (hb : b.toNat = mark isList + 55 + (numberBytes payload.length).length)
    (hcut : rest <+: numberBytes payload.length ++ payload)
    (hne : rest ≠ numberBytes payload.length ++ payload) :
    readHeader (b :: rest) = .error .inputTooShort := by
  rw [readHeader_long (length_numberBytes_pos hn hlt) (length_numberBytes_le _) hb]
  by_cases hsize : rest.length < (numberBytes payload.length).length
  · rw [readLongHeader, if_pos hsize]
  · obtain ⟨more, rfl⟩ : numberBytes payload.length <+: rest :=
      List.prefix_of_prefix_length_le (List.prefix_append _ _) hcut (Nat.not_lt.1 hsize)
    rw [List.prefix_append_right_inj] at hcut
    rw [readLongHeader_numberBytes isList hn hlt]
    exact check_eq_error (length_lt_of_cut hcut fun heq => hne (by rw [heq]))

/-- **A form that is cut off** has no header that can be read. -/
theorem readHeader_cut {isList : Bool} {payload cut : List UInt8} (hlt : payload.length < UInt64.size)
    (hcut : cut <+: writeHeader isList payload.length ++ payload)
    (hne : cut ≠ writeHeader isList payload.length ++ payload) :
    readHeader cut = .error .inputTooShort := by
  have hm := mark_cases isList
  have hl := length_numberBytes_le payload.length
  cases cut with
  | nil => rfl
  | cons b rest =>
    by_cases hn : payload.length < 56
    · obtain ⟨c, hc⟩ := exists_byte (n := mark isList + payload.length) (by omega)
      rw [writeHeader_short hn hc, List.singleton_append] at hcut hne
      obtain ⟨rfl, hrest⟩ := List.cons_prefix_cons.1 hcut
      exact readHeader_cut_short hn hc (length_lt_of_cut hrest fun heq => hne (by rw [heq]))
    · obtain ⟨c, hc⟩ := exists_byte (n := mark isList + 55 + (numberBytes payload.length).length)
        (by omega)
      rw [writeHeader_long hn hc, List.cons_append] at hcut hne
      obtain ⟨rfl, hrest⟩ := List.cons_prefix_cons.1 hcut
      exact readHeader_cut_long hn hlt hc hrest fun heq => hne (by rw [heq])

variable {α : Type} {read : Reader α} {write : α → List UInt8}

/-- **A record that is cut off** is too short, whatever its fields are. -/
theorem readExactly_record_cut (fields : Reader α) {payload cut : List UInt8}
    (hlt : (writeList payload).length < UInt64.size) (hcut : cut <+: writeList payload)
    (hne : cut ≠ writeList payload) : readExactly (readRecord fields) cut = .error .inputTooShort := by
  have hpayload := Nat.lt_of_le_of_lt (length_le_writeList payload) hlt
  have hheader : readHeader cut = .error .inputTooShort := readHeader_cut hpayload hcut hne
  rw [readExactly, readRecord, hheader]

/-! ## Going on -/

/-- **A form with more behind it** is read, but it is not all there is. -/
theorem readExactly_append (c : Codec read write) {a : α} (h : (write a).length < UInt64.size)
    {more : List UInt8} (hmore : more ≠ []) :
    readExactly read (write a ++ more) = .error .unexpectedLength := by
  obtain ⟨b, rest, rfl⟩ := List.exists_cons_of_ne_nil hmore
  rw [readExactly, c.read_write a (b :: rest) h]

end SlotIndex.Rlp
