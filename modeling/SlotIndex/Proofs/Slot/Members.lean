import Mathlib.Data.List.Nodup
import SlotIndex.Proofs.Layout.KeyTable

/-!
# Slots of struct members

The member of a struct stands some places behind the slot of the struct. A place is found by addition: byte
by byte from the last one to the first, with a carry into the byte in front, and what the first byte carries
out is dropped, so that behind the last slot of all comes slot zero. An offset is far below the number of
slots, so that no two members share a slot.

* `addBytes`: addition byte by byte; `addBytes_eq`: the sum it writes, and what it carries out.
* `memberSlot_inj`, `memberSlot_memberSlot_eq_iff`, `addBytes_memberSlot`.
* `MappingDecl.nodup_declarationsFor_iff`: the members that a mapping declares for one key.
* **`memberSlots_apart`**.
-/

namespace SlotIndex

open scoped CoreNat

/-! ## Addition byte by byte -/

/-- The sum of two byte lists of one length, from the last byte to the first, and what is carried out at
the front. -/
def addBytes : List UInt8 → List UInt8 → List UInt8 × Nat
  | a :: as, b :: bs =>
    let behind := addBytes as bs
    let digit := a.toNat + b.toNat + behind.2
    (UInt8.ofNat digit :: behind.1, digit / 256)
  | _, _ => ([], 0)

theorem length_addBytes {as bs : List UInt8} (h : as.length = bs.length) :
    (addBytes as bs).1.length = as.length := by
  induction as generalizing bs with
  | nil => rfl
  | cons a as ih =>
    obtain ⟨b, bs, rfl⟩ := List.exists_cons_of_length_eq_add_one h.symm
    simp only [addBytes, List.length_cons, ih (Nat.succ.inj h)]

/-- Nothing is lost: what is written and what is carried out make up the sum. -/
theorem toNat_addBytes {as bs : List UInt8} (h : as.length = bs.length) :
    256 ^ as.length * (addBytes as bs).2 + BigEndian.toNat (addBytes as bs).1 =
      BigEndian.toNat as + BigEndian.toNat bs := by
  induction as generalizing bs with
  | nil =>
    obtain rfl := List.length_eq_zero_iff.1 h.symm
    rfl
  | cons a as ih =>
    obtain ⟨b, bs, rfl⟩ := List.exists_cons_of_length_eq_add_one h.symm
    have hlength : as.length = bs.length := Nat.succ.inj h
    have hbehind := ih hlength
    -- What the first two bytes and the carry make up is split into a byte and what is carried out.
    have hdigit := Nat.div_add_mod (a.toNat + b.toNat + (addBytes as bs).2) 256
    simp only [addBytes, BigEndian.toNat_cons, length_addBytes hlength, List.length_cons,
      UInt8.toNat_ofNat', Nat.pow_succ, ← hlength]
    generalize 256 ^ as.length = place at hbehind ⊢
    calc place * 256 * ((a.toNat + b.toNat + (addBytes as bs).2) / 256) +
          (place * ((a.toNat + b.toNat + (addBytes as bs).2) % 256) +
            BigEndian.toNat (addBytes as bs).1)
        = place * (a.toNat + b.toNat + (addBytes as bs).2) + BigEndian.toNat (addBytes as bs).1 := by
          rw [Nat.mul_assoc, ← Nat.add_assoc, ← Nat.mul_add, hdigit]
      _ = place * a.toNat + place * b.toNat +
            (place * (addBytes as bs).2 + BigEndian.toNat (addBytes as bs).1) := by
          rw [Nat.mul_add, Nat.mul_add, Nat.add_assoc]
      _ = place * a.toNat + BigEndian.toNat as + (place * b.toNat + BigEndian.toNat bs) := by
          rw [hbehind]
          omega

/-- **Addition byte by byte** writes the sum in the width of the lists and carries out the rest. -/
theorem addBytes_eq {as bs : List UInt8} {w : Nat} (has : as.length = w) (hbs : bs.length = w) :
    addBytes as bs = (BigEndian.ofNat w (BigEndian.toNat as + BigEndian.toNat bs),
      (BigEndian.toNat as + BigEndian.toNat bs) / 256 ^ w) := by
  subst has
  have hlength := length_addBytes hbs.symm
  have hsum := toNat_addBytes hbs.symm
  have hlt := BigEndian.toNat_lt (addBytes as bs).1
  rw [hlength] at hlt
  refine Prod.ext ?_ ?_
  · refine BigEndian.toNat_injective (hlength.trans (BigEndian.length_ofNat _ _).symm) ?_
    rw [BigEndian.toNat_ofNat, ← hsum, Nat.mul_add_mod, Nat.mod_eq_of_lt hlt]
  · rw [← hsum, Nat.mul_add_div (Nat.pow_pos (by decide)), Nat.div_eq_of_lt hlt, Nat.add_zero]

example : addBytes [0xfe, 0xff, 0xff] [0, 0, 2] = ([0xff, 0, 1], 0) ∧
    addBytes [0xff, 0xff, 0xff] [0, 0, 2] = ([0, 0, 1], 1) := by decide

/-! ## One struct -/

section

variable (base : Word) (a b n : UInt64)

theorem toNat_memberSlot : (memberSlot base n).toNat = (base.toNat + n.toNat) % 256 ^ (32 : Nat) := rfl

/-- **Two offsets** lead to one slot only if they are one. -/
theorem memberSlot_inj : memberSlot base a = memberSlot base b ↔ a = b := by
  refine ⟨fun h => ?_, fun h => by rw [h]⟩
  have htoNat := congrArg Word.toNat h
  have hbase := base.toNat_lt
  have ha := a.toNat_lt
  have hb := b.toNat_lt
  rw [toNat_memberSlot, toNat_memberSlot] at htoNat
  apply UInt64.toNat_inj.1
  omega

/-- **One offset after another** is their sum exactly if this is an offset itself. -/
theorem memberSlot_memberSlot_eq_iff :
    memberSlot (memberSlot base a) b = memberSlot base (a + b) ↔ a.toNat + b.toNat < 2 ^ (64 : Nat) := by
  have hbase := base.toNat_lt
  have ha := a.toNat_lt
  have hb := b.toNat_lt
  have hsame : memberSlot (memberSlot base a) b = memberSlot base (a + b) ↔
      (memberSlot (memberSlot base a) b).toNat = (memberSlot base (a + b)).toNat :=
    ⟨congrArg Word.toNat, Word.ext⟩
  -- A sum that is no offset lacks `2 ^ 64`, and this is far from a multiple of the number of slots.
  rw [hsame, toNat_memberSlot, toNat_memberSlot, toNat_memberSlot, UInt64.toNat_add]
  omega

theorem toNat_bytes_memberSlot : BigEndian.toNat (memberSlot base n).bytes =
    (BigEndian.toNat base.bytes + n.toNat) % 2 ^ (256 : Nat) := by
  rw [Word.toNat_bytes, Word.toNat_bytes]
  rfl

/-- **The bytes of a member's slot** are added up from the last one on; one is carried out at the front
exactly if the sum goes past the top. -/
theorem addBytes_memberSlot : addBytes base.bytes (BigEndian.ofNat 32 n.toNat) =
    ((memberSlot base n).bytes, if base.toNat + n.toNat < 2 ^ (256 : Nat) then 0 else 1) := by
  have hbase := base.toNat_lt
  have hn := n.toNat_lt
  have hoffset : n.toNat % 256 ^ (32 : Nat) = n.toNat := Nat.mod_eq_of_lt (by omega)
  rw [addBytes_eq base.length_bytes (BigEndian.length_ofNat 32 _), Word.toNat_bytes,
    BigEndian.toNat_ofNat, hoffset]
  refine Prod.ext ?_ ?_
  · refine BigEndian.toNat_injective (by rw [BigEndian.length_ofNat, Word.length_bytes]) ?_
    rw [BigEndian.toNat_ofNat, Word.toNat_bytes, toNat_memberSlot]
  · simp only
    split <;> omega

end

/-! ## Declared structs -/

/-- **The members that a mapping declares for one key** stand at different slots exactly if their offsets
are different. -/
theorem MappingDecl.nodup_declarationsFor_iff {mapping : MappingDecl} {index : Word} {key : MappingKey}
    {found : List Declaration} (h : mapping.declarationsFor index key = .ok found) :
    (found.map Prod.fst).Nodup ↔ (mapping.members.map MemberDecl.offset).Nodup := by
  obtain ⟨words, -, hfound⟩ := declarationsFor_eq_ok.1 h
  rw [← Location.map_key_of_declaration (mapM_eq_ok.1 hfound), locationsAt]
  by_cases hmembers : mapping.members = []
  · simp [hmembers]
  · have hkeys : (mapping.members.map fun member => memberSlot (nestedSlot words index) member.offset) =
        (mapping.members.map MemberDecl.offset).map (memberSlot (nestedSlot words index)) := by
      rw [List.map_map]
      rfl
    have hinjective : Function.Injective (memberSlot (nestedSlot words index)) :=
      fun a b => (memberSlot_inj _ a b).1
    rw [if_neg hmembers, List.map_map]
    exact (congrArg List.Nodup hkeys).to_iff.trans (List.nodup_map_iff hinjective)

/-- **Slots of struct members never collide, and they compose.** From one slot, two offsets lead to two
slots. To go on from a member's slot by another offset is to go by the sum at once, exactly if the sum is
below `2 ^ 64`. The bytes of a member's slot write the sum modulo `2 ^ 256`: they are those of the slot with
the bytes of the offset added from the last one on, a carry taken through all of them, and a carry out at the
front, which is dropped, exactly if the sum goes past the top. So the members that a mapping declares for a
key stand at different slots exactly if their offsets are different. -/
theorem memberSlots_apart :
    (∀ base : Word, Function.Injective (memberSlot base)) ∧
    (∀ (base : Word) (a b : UInt64), memberSlot (memberSlot base a) b = memberSlot base (a + b) ↔
      a.toNat + b.toNat < 2 ^ (64 : Nat)) ∧
    (∀ (base : Word) (n : UInt64),
      BigEndian.toNat (memberSlot base n).bytes =
        (BigEndian.toNat base.bytes + n.toNat) % 2 ^ (256 : Nat) ∧
      addBytes base.bytes (BigEndian.ofNat 32 n.toNat) =
        ((memberSlot base n).bytes, if base.toNat + n.toNat < 2 ^ (256 : Nat) then 0 else 1)) ∧
    ∀ (mapping : MappingDecl) (index : Word) (key : MappingKey) (found : List Declaration),
      mapping.declarationsFor index key = .ok found →
      ((found.map Prod.fst).Nodup ↔ (mapping.members.map MemberDecl.offset).Nodup) := by
  refine ⟨fun base a b => (memberSlot_inj base a b).1, memberSlot_memberSlot_eq_iff, fun base n => ?_,
    fun mapping index key found => MappingDecl.nodup_declarationsFor_iff⟩
  exact ⟨toNat_bytes_memberSlot base n, addBytes_memberSlot base n⟩

/-- A struct with two members, behind no key at all: it stands at the index of its mapping. -/
def edgeStruct : MappingDecl where
  index := "0"
  name := "edge"
  keyNames := []
  members := [{ offset := 0, name := "first", type := .uint256 },
    { offset := 1, name := "second", type := .address }]

/-- At the last slot of all: its second member stands at slot zero. -/
theorem memberSlots_apart_edge : ∃ found,
    edgeStruct.declarationsFor (Word.ofNat (2 ^ (256 : Nat) - 1)) (.nested []) = .ok found ∧
      found.map Prod.fst = [Word.ofNat (2 ^ (256 : Nat) - 1), Word.ofNat 0] ∧
      (found.map Prod.fst).Nodup := by
  have h : edgeStruct.declarationsFor (Word.ofNat (2 ^ (256 : Nat) - 1)) (.nested []) =
      .ok [(Word.ofNat (2 ^ (256 : Nat) - 1), ⟨"first", Table.empty, .plain .uint256, by decide⟩),
        (Word.ofNat 0, ⟨"second", Table.empty, .plain .address, by decide⟩)] := rfl
  exact ⟨_, h, rfl, (memberSlots_apart.2.2.2 _ _ _ _ h).2 (by decide)⟩

end SlotIndex
