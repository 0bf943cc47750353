import SlotIndex.Proofs.Rlp.Codec

/-!
# Readers that advance

What a reader takes is a front part of the bytes ahead, and it is that part alone that decides the value:
the same bytes are read the same, whatever stands behind them. A reader of records or of lists takes at
least the bytes of a header.

* `Takes`, `IsLocal`, `Advances`.
* `advances_string`, `isLocal_number`, `isLocal_word`, `IsLocal.bind`.
* **`IsLocal.record`**, **`advances_list`**.
* `readItems_congr`: items that advance are read the same, if the steps are as many as the bytes;
  `readItems_of_error`, `Advances.readItems_of_ok`: the first of them.
-/

namespace SlotIndex.Rlp

variable {α β : Type} {read : Reader α}

/-- A reader takes these bytes for a value, whatever stands behind them. -/
def Takes (read : Reader α) (taken : List UInt8) (a : α) : Prop :=
  ∀ more, read (taken ++ more) = .ok (a, more)

/-- All that a reader looks at for a value is a front part of the bytes ahead, and it leaves what is behind
that part. -/
def IsLocal (read : Reader α) : Prop :=
  ∀ ⦃input a rest⦄, read input = .ok (a, rest) → ∃ taken, input = taken ++ rest ∧ Takes read taken a

/-- A reader takes a front part of the bytes ahead for a value, and this part is not empty: fewer bytes are left
than there were. -/
def Advances (read : Reader α) : Prop :=
  ∀ ⦃input a rest⦄, read input = .ok (a, rest) →
    ∃ taken, taken ≠ [] ∧ input = taken ++ rest ∧ Takes read taken a

theorem Advances.isLocal (h : Advances read) : IsLocal read := by
  intro input a rest hread
  obtain ⟨taken, -, hinput, htakes⟩ := h hread
  exact ⟨taken, hinput, htakes⟩

theorem IsLocal.length_le (h : IsLocal read) {input rest : List UInt8} {a : α}
    (hread : read input = .ok (a, rest)) : rest.length ≤ input.length := by
  obtain ⟨taken, rfl, -⟩ := h hread
  rw [List.length_append]
  exact Nat.le_add_left _ _

theorem Advances.length_lt (h : Advances read) {input rest : List UInt8} {a : α}
    (hread : read input = .ok (a, rest)) : rest.length < input.length := by
  obtain ⟨taken, hne, rfl, -⟩ := h hread
  rw [List.length_append]
  exact Nat.lt_add_of_pos_left (List.length_pos_iff.2 hne)

/-! ## Strings, numbers and words -/

theorem advances_string : Advances readString := by
  intro input payload rest hread
  exact ⟨writeString payload, writeString_ne_nil payload, eq_of_readString hread,
    fun more => readString_writeString more (length_lt_of_readString hread)⟩

theorem isLocal_number : IsLocal readNumber := by
  intro input n rest h
  rw [readNumber] at h
  split at h
  · contradiction
  next payload behind hr =>
  split at h
  · contradiction
  next hl =>
  split at h
  · contradiction
  next hz =>
  cases h
  obtain ⟨taken, -, rfl, htakes⟩ := advances_string hr
  refine ⟨taken, rfl, fun more => ?_⟩
  rw [readNumber, htakes more]
  simp only [if_neg hl, if_neg hz]

theorem isLocal_word : IsLocal readWord := by
  intro input w rest h
  rw [readWord] at h
  split at h
  · contradiction
  next payload behind hr =>
  split at h
  · next hl =>
    cases h
    obtain ⟨taken, -, rfl, htakes⟩ := advances_string hr
    refine ⟨taken, rfl, fun more => ?_⟩
    rw [readWord, htakes more]
    simp only [if_pos hl]
  · contradiction

/-! ## Fields, records and lists -/

theorem isLocal_pure (a : α) : IsLocal fun input => pure (a, input) := by
  intro input b rest h
  obtain ⟨rfl, rfl⟩ := Prod.mk.inj (Except.ok.inj h)
  exact ⟨[], rfl, fun more => rfl⟩

theorem IsLocal.bind {f : α × List UInt8 → Except Fault (β × List UInt8)} (h : IsLocal read)
    (hf : ∀ a, IsLocal fun rest => f (a, rest)) : IsLocal fun input => read input >>= f := by
  intro input b rest hread
  cases hr : read input with
  | error e => simp only [hr] at hread; contradiction
  | ok r =>
    obtain ⟨a, middle⟩ := r
    simp only [hr] at hread
    obtain ⟨taken, rfl, htakes⟩ := h hr
    obtain ⟨taken', rfl, htakes'⟩ := hf a hread
    refine ⟨taken ++ taken', (List.append_assoc _ _ _).symm, fun more => ?_⟩
    simp only [List.append_assoc, htakes (taken' ++ more)]
    exact htakes' more

/-- **Records** advance: they have a header, and their fields are the payload that it declares. -/
theorem IsLocal.record (h : IsLocal read) : Advances (readRecord read) := by
  intro input a rest hread
  obtain ⟨behind, hheader, hfields⟩ := exists_of_readRecord hread
  obtain ⟨taken, rfl, htakes⟩ := h hfields
  obtain ⟨hlt, -, rfl⟩ := eq_of_readHeader_list hheader
  rw [List.length_append, Nat.add_sub_cancel] at hlt ⊢
  refine ⟨writeList taken, writeList_ne_nil taken, ?_, fun more => ?_⟩
  · rw [writeList, List.append_assoc]
  · rw [readRecord, readHeader_writeList more hlt]
    simp [htakes more]

/-- **Lists** advance, whatever their items are: they are read from their own payload. -/
theorem advances_list (item : Reader α) : Advances (readList item) := by
  intro input as rest hread
  rw [readList] at hread
  split at hread
  · contradiction
  next payload behind hp =>
  split at hread
  · contradiction
  next hitems =>
  cases hread
  obtain ⟨hlt, rfl⟩ := eq_of_readPayload hp
  refine ⟨writeList payload, writeList_ne_nil payload, rfl, fun more => ?_⟩
  rw [readList, readPayload, readHeader_writeList more hlt]
  simp [hitems]

/-! ## Enough steps -/

/-- **Items that advance** are read the same in any number of steps that is not below that of the bytes. -/
theorem readItems_congr (h : Advances read) {input : List UInt8} {steps steps' : Nat}
    (hsteps : input.length ≤ steps) (hsteps' : input.length ≤ steps') :
    readItems read steps input = readItems read steps' input := by
  -- Every item takes one step of either number, and at least one byte.
  induction steps generalizing input steps' with
  | zero =>
    obtain rfl := List.length_eq_zero_iff.1 (Nat.le_zero.1 hsteps)
    cases steps' <;> rfl
  | succ steps ih =>
    cases input with
    | nil => cases steps' <;> rfl
    | cons b input =>
      obtain ⟨steps', rfl⟩ := Nat.exists_eq_add_of_le' (Nat.le_trans (Nat.le_add_left 1 _) hsteps')
      rw [readItems_cons, readItems_cons]
      cases hread : read (b :: input) with
      | error e => rfl
      | ok r =>
        obtain ⟨a, rest⟩ := r
        have hlt := h.length_lt hread
        rw [List.length_cons] at hlt hsteps hsteps'
        simp only
        rw [ih (by omega) (show rest.length ≤ steps' by omega)]

theorem readItems_of_error {input : List UInt8} {e : Fault} (hne : input ≠ [])
    (hread : read input = .error e) : readItems read input.length input = .error e := by
  obtain ⟨b, input, rfl⟩ := List.exists_cons_of_ne_nil hne
  rw [List.length_cons, readItems_cons, hread]

/-- One item, and then the items behind it in as many steps as there are bytes left. -/
theorem Advances.readItems_of_ok (h : Advances read) {input rest : List UInt8} {a : α} (hne : input ≠ [])
    (hread : read input = .ok (a, rest)) : readItems read input.length input =
      (readItems read rest.length rest).map (a :: ·) := by
  obtain ⟨b, input, rfl⟩ := List.exists_cons_of_ne_nil hne
  have hle : rest.length ≤ input.length := Nat.le_of_lt_succ (h.length_lt hread)
  rw [List.length_cons, readItems_cons, hread]
  simp only
  rw [readItems_congr h hle (Nat.le_refl _)]
  cases readItems read rest.length rest <;> rfl

end SlotIndex.Rlp
