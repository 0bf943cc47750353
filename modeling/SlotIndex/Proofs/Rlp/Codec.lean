import SlotIndex.Proofs.Rlp.Header

/-!
# Readers and writers of one form

A reader and a writer belong together if everything that is written is read back and nothing else is
read. Strings, numbers and words have such pairs, and records and lists pass them on from their fields
and items, however deep they are nested.

* `Codec`: a reader and a writer that belong together.
* `codec_string`, `codec_number`, `codec_word`; `Codec.record`, `Codec.list`.
* `readExactly_eq_ok`: the bytes that form a value are those that are written for it.
-/

namespace SlotIndex.Rlp

/-- A reader and a writer that belong together: what is written is read back and all that stands
behind it is left, nothing but what is written is read, and something is written for every value. -/
structure Codec {α : Type} (read : Reader α) (write : α → List UInt8) : Prop where
  read_write (a : α) (rest : List UInt8) : (write a).length < UInt64.size →
    read (write a ++ rest) = .ok (a, rest)
  write_read {a : α} {input rest : List UInt8} : read input = .ok (a, rest) →
    input = write a ++ rest
  ne_nil (a : α) : write a ≠ []

namespace Codec

variable {α β : Type} {read : Reader α} {write : α → List UInt8}

/-- Reading on after a value that has been written. -/
theorem read_bind (c : Codec read write) (a : α) (rest : List UInt8)
    (f : α × List UInt8 → Except Fault β) (h : (write a).length < UInt64.size) :
    (read (write a ++ rest) >>= f) = f (a, rest) := by
  rw [c.read_write a rest h]
  rfl

/-- What has been read before reading went on. -/
theorem of_bind_eq_ok (c : Codec read write) {input : List UInt8}
    {f : α × List UInt8 → Except Fault β} {b : β} (h : (read input >>= f) = .ok b) :
    ∃ a rest, write a ++ rest = input ∧ f (a, rest) = .ok b := by
  cases hr : read input with
  | error e => rw [hr] at h; contradiction
  | ok r =>
    rw [hr] at h
    exact ⟨r.1, r.2, (c.write_read hr).symm, h⟩

end Codec

/-! ## Strings, numbers and words -/

theorem writeString_small {b : UInt8} (hb : b < 0x80) : writeString [b] = [b] := by
  rw [writeString, if_pos hb]

theorem writeString_of_fits {payload rest : List UInt8}
    (h : Header.Fits ⟨false, payload.length⟩ (payload ++ rest)) :
    writeString payload = writeHeader false payload.length ++ payload := by
  match payload with
  | [] => rfl
  | [b] =>
    have hb : ¬ b < 0x80 := h.single rfl rfl b rfl
    rw [writeString, if_neg hb]
    rfl
  | _ :: _ :: _ => rfl

theorem writeHeader_ne_nil (isList : Bool) (n : Nat) : writeHeader isList n ≠ [] := by
  simp only [writeHeader]
  split <;> simp

theorem writeString_ne_nil (payload : List UInt8) : writeString payload ≠ [] := by
  match payload with
  | [] => simp [writeString, writeHeader_ne_nil]
  | [b] => simp only [writeString]; split <;> simp
  | _ :: _ :: _ => simp [writeString]

theorem length_le_writeString (payload : List UInt8) :
    payload.length ≤ (writeString payload).length := by
  match payload with
  | [] => simp
  | [b] => exact List.length_pos_iff.2 (writeString_ne_nil _)
  | _ :: _ :: _ => simp [writeString]

theorem length_le_writeList (payload : List UInt8) :
    payload.length ≤ (writeList payload).length := by
  simp [writeList]

theorem writeList_ne_nil (payload : List UInt8) : writeList payload ≠ [] := by
  simp [writeList, writeHeader_ne_nil]

theorem readString_writeString {payload : List UInt8} (rest : List UInt8)
    (h : payload.length < UInt64.size) :
    readString (writeString payload ++ rest) = .ok (payload, rest) := by
  by_cases hs : ∃ b, payload = [b] ∧ b < 0x80
  · obtain ⟨b, rfl, hb⟩ := hs
    rw [writeString_small hb, List.singleton_append, readString,
      readHeader_small (UInt8.lt_iff_toNat_lt.1 hb)]
    rfl
  · have hf : Header.Fits ⟨false, payload.length⟩ (payload ++ rest) := by
      refine ⟨h, by simp, fun _ h1 c hc hlt => hs ?_⟩
      obtain ⟨b, rfl⟩ := List.length_eq_one_iff.1 h1
      cases hc
      exact ⟨c, rfl, hlt⟩
    have hr := readHeader_writeHeader hf
    rw [writeString_of_fits hf, List.append_assoc, readString]
    simp only at hr
    rw [hr]
    simp

theorem eq_of_readString {payload input rest : List UInt8}
    (h : readString input = .ok (payload, rest)) : input = writeString payload ++ rest := by
  rw [readString] at h
  split at h
  · contradiction
  next hd behind hr =>
  split at h
  · contradiction
  next hlist =>
  cases h
  rcases readHeader_eq_ok hr with ⟨rfl, rfl, b, hb, hlt⟩ | ⟨hf, rfl⟩
  · obtain ⟨tail, rfl⟩ := List.head?_eq_some_iff.1 hb
    exact (congrArg (· ++ tail) (writeString_small hlt)).symm
  · obtain ⟨isList, n⟩ := hd
    obtain rfl : isList = false := by simpa using hlist
    have hn : (behind.take n).length = n := by
      rw [List.length_take]
      exact Nat.min_eq_left hf.le
    have hf' : Header.Fits ⟨false, (behind.take n).length⟩ (behind.take n ++ behind.drop n) := by
      rwa [hn, List.take_append_drop]
    rw [writeString_of_fits hf', hn, List.append_assoc, List.take_append_drop]

/-- A string that has been read has a length that can be written. -/
theorem length_lt_of_readString {payload input rest : List UInt8}
    (h : readString input = .ok (payload, rest)) : payload.length < UInt64.size := by
  rw [readString] at h
  split at h
  · contradiction
  next hd behind hr =>
  split at h
  · contradiction
  cases h
  have hlt : hd.length < UInt64.size := by
    rcases readHeader_eq_ok hr with ⟨rfl, -, -⟩ | ⟨hf, -⟩
    · decide
    · exact hf.lt
  exact Nat.lt_of_le_of_lt (List.length_take_le _ _) hlt

/-- **Strings.** -/
theorem codec_string : Codec readString writeString where
  read_write payload rest h :=
    readString_writeString rest (Nat.lt_of_le_of_lt (length_le_writeString payload) h)
  write_read := eq_of_readString
  ne_nil := writeString_ne_nil

/-- **Numbers.** -/
theorem codec_number : Codec readNumber fun n : UInt64 => writeNumber n.toNat where
  read_write n rest _ := by
    have hl := length_numberBytes_le n.toNat
    rw [readNumber, writeNumber, readString_writeString rest (Nat.lt_of_le_of_lt hl (by decide))]
    simp only
    rw [if_neg (Nat.not_lt.2 hl), if_neg (head_numberBytes n.toNat),
      toNat_numberBytes n.toNat_lt_size, UInt64.ofNat_toNat]
  write_read {n input rest} h := by
    rw [readNumber] at h
    split at h
    · contradiction
    next payload behind hr =>
    split at h
    · contradiction
    next hl =>
    split at h
    · contradiction
    next hz =>
    cases h
    have hlt := toNat_lt_of_length_le (Nat.not_lt.1 hl)
    rw [UInt64.toNat_ofNat', Nat.mod_eq_of_lt hlt, writeNumber,
      numberBytes_toNat (Nat.not_lt.1 hl) hz]
    exact eq_of_readString hr
  ne_nil n := writeString_ne_nil _

/-- **Words.** -/
theorem codec_word : Codec readWord fun w : Word => writeString w.bytes where
  read_write w rest h := by
    rw [readWord, codec_string.read_write w.bytes rest h]
    simp
  write_read {w input rest} h := by
    rw [readWord] at h
    split at h
    · contradiction
    next payload behind hr =>
    split at h
    · next hl =>
      cases h
      rw [Word.bytes_ofBytes hl]
      exact eq_of_readString hr
    · contradiction
  ne_nil w := writeString_ne_nil _

/-! ## Records and lists -/

theorem fits_list {payload : List UInt8} (rest : List UInt8) (h : payload.length < UInt64.size) :
    Header.Fits ⟨true, payload.length⟩ (payload ++ rest) :=
  ⟨h, by simp, fun h => absurd h (by simp)⟩

theorem readHeader_writeList {payload : List UInt8} (rest : List UInt8)
    (h : payload.length < UInt64.size) :
    readHeader (writeList payload ++ rest) = .ok (⟨true, payload.length⟩, payload ++ rest) := by
  rw [writeList, List.append_assoc]
  exact readHeader_writeHeader (fits_list rest h)

/-- The header of a list that has been read. -/
theorem eq_of_readHeader_list {n : Nat} {input behind : List UInt8}
    (h : readHeader input = .ok (⟨true, n⟩, behind)) :
    n < UInt64.size ∧ n ≤ behind.length ∧ input = writeHeader true n ++ behind := by
  rcases readHeader_eq_ok h with ⟨hh, -⟩ | ⟨hf, rfl⟩
  · simp at hh
  · exact ⟨hf.lt, hf.le, rfl⟩

/-- The payload of a list that has been read. -/
theorem eq_of_readPayload {payload input rest : List UInt8}
    (h : readPayload input = .ok (payload, rest)) :
    payload.length < UInt64.size ∧ input = writeList payload ++ rest := by
  rw [readPayload] at h
  split at h
  · contradiction
  next hd tail hr =>
  split at h
  · next hlist =>
    cases h
    obtain ⟨isList, n⟩ := hd
    obtain rfl : isList = true := hlist
    obtain ⟨hlt, hle, rfl⟩ := eq_of_readHeader_list hr
    have hn : (tail.take n).length = n := by
      rw [List.length_take]
      exact Nat.min_eq_left hle
    refine ⟨by rwa [hn], ?_⟩
    rw [writeList, hn, List.append_assoc, List.take_append_drop]
  · contradiction

variable {α : Type} {read : Reader α} {write : α → List UInt8}

/-- A record that has been read: its header, its fields, and the bytes that they took. -/
theorem exists_of_readRecord {input behind : List UInt8} {a : α}
    (h : readRecord read input = .ok (a, behind)) :
    ∃ rest, readHeader input = .ok (⟨true, rest.length - behind.length⟩, rest) ∧
      read rest = .ok (a, behind) := by
  rw [readRecord] at h
  split at h
  · contradiction
  next hd rest hr =>
  split at h
  · next hlist =>
    split at h
    · contradiction
    next hfields =>
    simp only at h
    split at h
    · next htaken =>
      cases h
      obtain ⟨isList, n⟩ := hd
      obtain rfl : isList = true := hlist
      exact ⟨rest, htaken ▸ hr, hfields⟩
    · contradiction
  · contradiction

/-- **Records.** The fields are read from all bytes ahead; that they took as many as the header
declares makes them the payload. -/
theorem Codec.record (c : Codec read write) :
    Codec (readRecord read) fun a => writeList (write a) where
  read_write a rest h := by
    have hw := Nat.lt_of_le_of_lt (length_le_writeList (write a)) h
    rw [readRecord, readHeader_writeList rest hw]
    simp [c.read_write a rest hw]
  write_read {a input rest} h := by
    obtain ⟨behind, hheader, hfields⟩ := exists_of_readRecord h
    obtain rfl := c.write_read hfields
    obtain ⟨-, -, rfl⟩ := eq_of_readHeader_list hheader
    rw [List.length_append, Nat.add_sub_cancel, writeList, List.append_assoc]
  ne_nil a := writeList_ne_nil _

theorem readItems_cons (read : Reader α) (steps : Nat) (b : UInt8) (input : List UInt8) :
    readItems read (steps + 1) (b :: input) =
      match read (b :: input) with
      | .error e => .error e
      | .ok (a, rest) =>
        match readItems read steps rest with
        | .error e => .error e
        | .ok as => .ok (a :: as) := rfl

theorem readItems_flatMap (c : Codec read write) (as : List α)
    (h : (as.flatMap write).length < UInt64.size) {steps : Nat} (hs : as.length ≤ steps) :
    readItems read steps (as.flatMap write) = .ok as := by
  induction as generalizing steps with
  | nil => cases steps <;> rfl
  | cons a as ih =>
    obtain ⟨steps, rfl⟩ := Nat.exists_eq_add_of_le' hs
    rw [List.flatMap_cons, List.length_append] at h
    obtain ⟨b, tail, hw⟩ := List.exists_cons_of_ne_nil (c.ne_nil a)
    have hread := c.read_write a (as.flatMap write) (by omega)
    rw [hw, List.cons_append] at hread
    rw [List.flatMap_cons, hw, List.cons_append, List.length_cons, ← Nat.add_assoc, readItems_cons,
      hread]
    simp only
    rw [ih (by omega) (Nat.le_add_left _ _)]

theorem eq_of_readItems (c : Codec read write) {steps : Nat} {input : List UInt8} {as : List α}
    (h : readItems read steps input = .ok as) : input = as.flatMap write := by
  induction steps generalizing input as with
  | zero =>
    cases input with
    | nil => cases h; rfl
    | cons b input => contradiction
  | succ steps ih =>
    cases input with
    | nil => cases h; rfl
    | cons b input =>
      rw [readItems_cons] at h
      split at h
      · contradiction
      next a rest hread =>
      split at h
      · contradiction
      next as hrest =>
      cases h
      rw [List.flatMap_cons, ← ih hrest]
      exact c.write_read hread

theorem length_le_flatMap (c : Codec read write) (as : List α) :
    as.length ≤ (as.flatMap write).length := by
  induction as with
  | nil => simp
  | cons a as ih =>
    have := List.length_pos_iff.2 (c.ne_nil a)
    rw [List.flatMap_cons, List.length_append, List.length_cons]
    omega

/-- **Lists.** -/
theorem Codec.list (c : Codec read write) :
    Codec (readList read) fun as => writeList (as.flatMap write) where
  read_write as rest h := by
    have hw := Nat.lt_of_le_of_lt (length_le_writeList (as.flatMap write)) h
    rw [readList, readPayload, readHeader_writeList rest hw]
    simp only [if_true, List.take_append_length, List.drop_append_length]
    rw [readItems_flatMap c as hw (length_le_flatMap c as)]
  write_read {as input rest} h := by
    rw [readList] at h
    split at h
    · contradiction
    next payload behind hp =>
    split at h
    · contradiction
    next hitems =>
    cases h
    rw [← eq_of_readItems c hitems]
    exact (eq_of_readPayload hp).2
  ne_nil as := writeList_ne_nil _

/-! ## Values that all bytes form -/

theorem readExactly_write (c : Codec read write) {a : α} (h : (write a).length < UInt64.size) :
    readExactly read (write a) = .ok a := by
  have hr := c.read_write a [] h
  rw [List.append_nil] at hr
  rw [readExactly, hr]

theorem readExactly_eq_ok (c : Codec read write) {input : List UInt8} {a : α}
    (h : readExactly read input = .ok a) : input = write a := by
  rw [readExactly] at h
  split at h
  · contradiction
  · next hr =>
    cases h
    rw [c.write_read hr, List.append_nil]
  · contradiction

/-- The strings that bytes can be read as are those that they are written for. -/
theorem readExactly_string_eq_ok {input payload : List UInt8} :
    readExactly readString input = .ok payload ↔
      payload.length < UInt64.size ∧ input = writeString payload := by
  constructor
  · intro h
    refine ⟨?_, readExactly_eq_ok codec_string h⟩
    rw [readExactly] at h
    split at h
    · contradiction
    · next hr =>
      cases h
      exact length_lt_of_readString hr
    · contradiction
  · rintro ⟨hlt, rfl⟩
    have hr := readString_writeString [] hlt
    rw [List.append_nil] at hr
    rw [readExactly, hr]

end SlotIndex.Rlp
