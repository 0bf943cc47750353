import SlotIndex.Slot.Location

/-!
# Collisions of nested slots

The slot behind a chain of keys is found by hashing 64 bytes for each key: those of the key and those of the
slot that has been found so far. Both can be read off the bytes by position. Two chains of one length that
lead to the same slot are therefore one chain, unless different bytes have the same hash.

* `preimage`, `preimages`: what is hashed for one key and for a chain of keys.
* `preimage_inj`, `mappingSlot_eq_iff`: one key; `CollideAt`: different bytes with one hash.
* **`nestedSlot_eq_iff`**: when two chains lead to the same slot.
* `getElem?_preimages`: what is hashed at a level.
* **`nestedSlot_collides`**.
-/

namespace SlotIndex

/-- What is hashed for a key: its bytes in front of those of a slot. -/
def preimage (key slot : Word) : List UInt8 := key.bytes ++ slot.bytes

/-- What is hashed for a chain of keys, outermost first, one after the other. -/
def preimages : List Word → Word → List (List UInt8)
  | [], _ => []
  | key :: keys, slot => preimage key slot :: preimages keys (mappingSlot key slot)

/-- Different bytes at one level have the same hash. -/
def CollideAt (level : Nat) (hashed hashed' : List (List UInt8)) : Prop :=
  ∃ m ∈ hashed[level]?, ∃ m' ∈ hashed'[level]?, m ≠ m' ∧ keccak256 m = keccak256 m'

variable {key key' slot slot' index index' : Word} {keys keys' : List Word}
  {hashed hashed' : List (List UInt8)} {m m' : List UInt8}

/-! ## One key -/

theorem length_preimage (key slot : Word) : (preimage key slot).length = 64 := by
  rw [preimage, List.length_append, Word.length_bytes, Word.length_bytes]

/-- **The bytes determine the key and the slot**: 32 of them are those of the key. -/
theorem preimage_inj : preimage key slot = preimage key' slot' ↔ key = key' ∧ slot = slot' := by
  constructor
  · intro h
    have hlength : key.bytes.length = key'.bytes.length := by
      rw [Word.length_bytes, Word.length_bytes]
    obtain ⟨hkey, hslot⟩ := List.append_inj h hlength
    exact ⟨Word.bytes_injective hkey, Word.bytes_injective hslot⟩
  · rintro ⟨rfl, rfl⟩
    rfl

theorem mappingSlot_eq (key slot : Word) : mappingSlot key slot = keccak256 (preimage key slot) := rfl

/-- Two keys lead to the same slot if they are one, in the same mapping, or if what is hashed collides. -/
theorem mappingSlot_eq_iff : mappingSlot key slot = mappingSlot key' slot' ↔
    key = key' ∧ slot = slot' ∨ preimage key slot ≠ preimage key' slot' ∧
      keccak256 (preimage key slot) = keccak256 (preimage key' slot') := by
  rw [← preimage_inj, mappingSlot_eq, mappingSlot_eq]
  constructor
  · intro hsame
    by_cases h : preimage key slot = preimage key' slot'
    · exact .inl h
    · exact .inr ⟨h, hsame⟩
  · rintro (h | ⟨-, hsame⟩)
    · rw [h]
    · exact hsame

theorem collideAt_zero :
    CollideAt 0 (m :: hashed) (m' :: hashed') ↔ m ≠ m' ∧ keccak256 m = keccak256 m' := by
  simp [CollideAt]

theorem collideAt_succ {level : Nat} :
    CollideAt (level + 1) (m :: hashed) (m' :: hashed') ↔ CollideAt level hashed hashed' := Iff.rfl

/-! ## Chains of keys -/

/-- What is hashed at a level: the key and the slot behind the keys in front of it. -/
theorem getElem?_preimages (keys : List Word) (index : Word) (level : Nat) :
    (preimages keys index)[level]? =
      keys[level]?.map fun key => preimage key (nestedSlot (keys.take level) index) := by
  induction keys generalizing index level with
  | nil => rfl
  | cons key keys ih =>
    cases level with
    | zero => rfl
    | succ level =>
      simp only [preimages, List.getElem?_cons_succ, ih, List.take_succ_cons, nestedSlot_cons]

/-- **Two chains of one length lead to the same slot** if they are one chain, or if they collide at some
level and go on with the same keys. -/
theorem nestedSlot_eq_iff (hlength : keys.length = keys'.length) :
    nestedSlot keys index = nestedSlot keys' index' ↔ keys = keys' ∧ index = index' ∨
      ∃ level, CollideAt level (preimages keys index) (preimages keys' index') ∧
        keys.drop (level + 1) = keys'.drop (level + 1) := by
  induction keys generalizing keys' index index' with
  | nil =>
    obtain rfl := List.length_eq_zero_iff.1 hlength.symm
    simp [nestedSlot, preimages, CollideAt]
  | cons key keys ih =>
    cases keys' with
    | nil => contradiction
    | cons key' keys' =>
      rw [nestedSlot_cons, nestedSlot_cons, ih (Nat.succ.inj hlength)]
      constructor
      · rintro (⟨rfl, hslot⟩ | ⟨level, hcollide, hkeys⟩)
        · rcases mappingSlot_eq_iff.1 hslot with ⟨rfl, rfl⟩ | hcollide
          · exact .inl ⟨rfl, rfl⟩
          · exact .inr ⟨0, collideAt_zero.2 hcollide, rfl⟩
        · exact .inr ⟨level + 1, collideAt_succ.2 hcollide, hkeys⟩
      · rintro (⟨hkeys, rfl⟩ | ⟨level, hcollide, hkeys⟩)
        · obtain ⟨rfl, rfl⟩ := List.cons.inj hkeys
          exact .inl ⟨rfl, rfl⟩
        · cases level with
          | zero => exact .inl ⟨hkeys, mappingSlot_eq_iff.2 (.inr (collideAt_zero.1 hcollide))⟩
          | succ level => exact .inr ⟨level, collideAt_succ.1 hcollide, hkeys⟩

/-- **Slots of nested mappings collide only if hashes do**: two chains of one length, wherever they start,
lead to different slots or are one chain, or at some level the 64 bytes that are hashed differ and have the
same hash. At each level these are the key and the slot so far, and chains can be followed end to end. -/
theorem nestedSlot_collides :
    (∀ (keys keys' : List Word) (index index' : Word), keys.length = keys'.length →
      (nestedSlot keys index = nestedSlot keys' index' ↔ keys = keys' ∧ index = index' ∨
        ∃ level, CollideAt level (preimages keys index) (preimages keys' index') ∧
          keys.drop (level + 1) = keys'.drop (level + 1))) ∧
    (∀ (front : List Word) (key : Word) (back : List Word) (index : Word),
      (preimages (front ++ key :: back) index)[front.length]? =
          some (key.bytes ++ (nestedSlot front index).bytes) ∧
        (key.bytes ++ (nestedSlot front index).bytes).length = 64 ∧
        nestedSlot (front ++ [key]) index = keccak256 (key.bytes ++ (nestedSlot front index).bytes)) ∧
    ∀ (keys more : List Word) (index : Word),
      nestedSlot (keys ++ more) index = nestedSlot more (nestedSlot keys index) := by
  refine ⟨fun _ _ _ _ => nestedSlot_eq_iff, fun front key back index => ⟨?_, length_preimage _ _, ?_⟩,
    nestedSlot_append⟩
  · rw [getElem?_preimages, List.getElem?_append_right (Nat.le_refl _), Nat.sub_self,
      List.getElem?_cons_zero, Option.map_some, List.take_left]
    rfl
  · rw [nestedSlot_append]
    rfl

/-- An allowance of two accounts, in either order: the slots differ, and so nothing collides on the way. -/
theorem nestedSlot_collides_swapped :
    let owner := Word.ofNat 0xaa
    let spender := Word.ofNat 0xbb
    let index := Word.ofNat 1
    [owner, spender].length = [spender, owner].length ∧
      nestedSlot [owner, spender] index = mappingSlot spender (mappingSlot owner index) ∧
      nestedSlot [owner, spender] index ≠ nestedSlot [spender, owner] index ∧
      ¬ CollideAt 1 (preimages [owner, spender] index) (preimages [spender, owner] index) := by
  intro owner spender index
  have hlength : [owner, spender].length = [spender, owner].length := rfl
  have hne : nestedSlot [owner, spender] index ≠ nestedSlot [spender, owner] index := by decide +kernel
  have hslot := nestedSlot_collides.2.2 [owner] [spender] index
  refine ⟨hlength, hslot, hne, fun hcollide => hne ?_⟩
  exact (nestedSlot_collides.1 _ _ index index hlength).2 (.inr ⟨1, hcollide, rfl⟩)

end SlotIndex
