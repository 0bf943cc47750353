import SlotIndex.Word.BigEndian

/-!
# Words and addresses

A `Word` is one 32-byte storage word: a slot number, a slot value or a hash. It is held as the
number it writes, so that its arithmetic is plain; `Word.bytes` is its byte view. An `Address` is
the 20-byte name of a contract.

* `Word.ofBytes`: a shorter list is padded on the left, of a longer one the last 32 bytes count.
* `Word.add`: addition with wrap-around at the top.
* `Word.bytes_injective`: the byte view loses nothing.
-/

namespace SlotIndex

open scoped CoreNat

/-- A 32-byte storage word, held as the number that it writes. -/
structure Word where
  toNat : Nat
  toNat_lt : toNat < 256 ^ (32 : Nat)
deriving DecidableEq

namespace Word

@[ext] theorem ext {v w : Word} (h : v.toNat = w.toNat) : v = w := by
  cases v; cases w; simpa using h

/-- The word of a number, modulo `256 ^ 32`. -/
def ofNat (n : Nat) : Word := ⟨n % 256 ^ (32 : Nat), Nat.mod_lt _ (by decide)⟩

/-- The word that a byte list writes: short lists are padded on the left, of long ones only the
last 32 bytes count. -/
def ofBytes (bytes : List UInt8) : Word := ofNat (BigEndian.toNat bytes)

/-- The 32 bytes of a word, most significant first. -/
def bytes (w : Word) : List UInt8 := BigEndian.ofNat 32 w.toNat

/-- The word `n` places after `w`, with wrap-around at the top. -/
def add (w : Word) (n : Nat) : Word := ofNat (w.toNat + n)

instance : Inhabited Word := ⟨ofNat 0⟩

instance : Ord Word := ⟨fun v w => compare v.toNat w.toNat⟩

instance : LE Word := ⟨fun v w => v.toNat ≤ w.toNat⟩

instance (v w : Word) : Decidable (v ≤ w) := inferInstanceAs (Decidable (v.toNat ≤ w.toNat))

@[simp] theorem toNat_ofNat (n : Nat) : (ofNat n).toNat = n % 256 ^ (32 : Nat) := rfl

@[simp] theorem ofNat_toNat (w : Word) : ofNat w.toNat = w :=
  ext (Nat.mod_eq_of_lt w.toNat_lt)

@[simp] theorem length_bytes (w : Word) : w.bytes.length = 32 := BigEndian.length_ofNat _ _

@[simp] theorem toNat_bytes (w : Word) : BigEndian.toNat w.bytes = w.toNat := by
  rw [bytes, BigEndian.toNat_ofNat, Nat.mod_eq_of_lt w.toNat_lt]

@[simp] theorem ofBytes_bytes (w : Word) : ofBytes w.bytes = w := by
  rw [ofBytes, toNat_bytes, ofNat_toNat]

theorem bytes_ofBytes {bytes : List UInt8} (h : bytes.length = 32) :
    (ofBytes bytes).bytes = bytes := by
  have hlt := BigEndian.toNat_lt bytes
  rw [h] at hlt
  rw [Word.bytes, ofBytes, toNat_ofNat, Nat.mod_eq_of_lt hlt, ← h, BigEndian.ofNat_toNat]

theorem bytes_injective {v w : Word} (h : v.bytes = w.bytes) : v = w := by
  rw [← ofBytes_bytes v, h, ofBytes_bytes]

end Word

/-- The 20-byte name of a contract, held as the number that it writes. -/
structure Address where
  toNat : Nat
  toNat_lt : toNat < 256 ^ (20 : Nat)
deriving DecidableEq

namespace Address

@[ext] theorem ext {a b : Address} (h : a.toNat = b.toNat) : a = b := by
  cases a; cases b; simpa using h

/-- The address that a byte list writes: its last 20 bytes count. -/
def ofBytes (bytes : List UInt8) : Address :=
  ⟨BigEndian.toNat bytes % 256 ^ (20 : Nat), Nat.mod_lt _ (by decide)⟩

/-- The 20 bytes of an address, most significant first. -/
def bytes (a : Address) : List UInt8 := BigEndian.ofNat 20 a.toNat

instance : Inhabited Address := ⟨ofBytes []⟩

@[simp] theorem length_bytes (a : Address) : a.bytes.length = 20 := BigEndian.length_ofNat _ _

@[simp] theorem toNat_bytes (a : Address) : BigEndian.toNat a.bytes = a.toNat := by
  rw [bytes, BigEndian.toNat_ofNat, Nat.mod_eq_of_lt a.toNat_lt]

end Address

end SlotIndex
