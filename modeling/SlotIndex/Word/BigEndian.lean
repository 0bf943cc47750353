import SlotIndex.CoreNat

/-!
# Big-endian numerals

A list of bytes is read as a number in base 256, most significant byte first.

* `toNat`: the number a byte list writes.
* `ofNat w n`: the `w` bytes that write `n` modulo `256 ^ w`.
* `significant`: a byte list without its leading zero bytes.

`toNat_ofNat` and `ofNat_toNat` say that the two readings undo each other on lists of one length;
`ofNat_toNat_of_le` says what becomes of a shorter list, and `toNat_split` what the parts of a list write.
-/

namespace SlotIndex.BigEndian

open scoped CoreNat

/-- The number that a byte list writes in base 256. -/
def toNat (bytes : List UInt8) : Nat :=
  bytes.foldl (fun n b => 256 * n + b.toNat) 0

/-- The `w` low-order bytes of a number, most significant first. -/
def ofNat : (w : Nat) → Nat → List UInt8
  | 0, _ => []
  | w + 1, n => ofNat w (n / 256) ++ [UInt8.ofNat n]

/-- A byte list without its leading zero bytes: the shortest list that writes the same number. -/
def significant (bytes : List UInt8) : List UInt8 :=
  bytes.dropWhile (· == 0)

@[simp] theorem toNat_nil : toNat [] = 0 := rfl

theorem toNat_concat (bytes : List UInt8) (b : UInt8) :
    toNat (bytes ++ [b]) = 256 * toNat bytes + b.toNat := by
  simp [toNat]

theorem foldl_eq (bytes : List UInt8) (n : Nat) :
    bytes.foldl (fun n b => 256 * n + b.toNat) n = 256 ^ bytes.length * n + toNat bytes := by
  induction bytes generalizing n with
  | nil => simp
  | cons b bytes ih =>
    simp only [toNat, List.foldl_cons, List.length_cons, Nat.mul_zero, Nat.zero_add]
    rw [ih, ih b.toNat, Nat.pow_succ, Nat.mul_add, ← Nat.mul_assoc]
    omega

theorem toNat_append (front back : List UInt8) :
    toNat (front ++ back) = 256 ^ back.length * toNat front + toNat back := by
  rw [toNat, List.foldl_append, foldl_eq]; rfl

theorem toNat_cons (b : UInt8) (bytes : List UInt8) :
    toNat (b :: bytes) = 256 ^ bytes.length * b.toNat + toNat bytes := by
  simpa [toNat] using toNat_append [b] bytes

theorem toNat_lt (bytes : List UInt8) : toNat bytes < 256 ^ bytes.length := by
  induction bytes with
  | nil => simp
  | cons b bytes ih =>
    have hb : b.toNat < 256 := b.toNat_lt
    rw [toNat_cons, List.length_cons, Nat.pow_succ]
    calc 256 ^ bytes.length * b.toNat + toNat bytes
        < 256 ^ bytes.length * b.toNat + 256 ^ bytes.length := by omega
      _ = 256 ^ bytes.length * (b.toNat + 1) := by rw [Nat.mul_add, Nat.mul_one]
      _ ≤ 256 ^ bytes.length * 256 := Nat.mul_le_mul_left _ hb

@[simp] theorem length_ofNat (w n : Nat) : (ofNat w n).length = w := by
  induction w generalizing n with
  | zero => rfl
  | succ w ih => simp [ofNat, ih]

theorem toNat_ofNat (w n : Nat) : toNat (ofNat w n) = n % 256 ^ w := by
  induction w generalizing n with
  | zero => simp [ofNat, Nat.mod_one]
  | succ w ih =>
    rw [ofNat, toNat_concat, ih, Nat.pow_succ, Nat.mul_comm (256 ^ w), Nat.mod_mul,
      UInt8.toNat_ofNat']
    omega

theorem ofNat_toNat (bytes : List UInt8) : ofNat bytes.length (toNat bytes) = bytes := by
  obtain ⟨n, hn⟩ : ∃ n, bytes.length = n := ⟨_, rfl⟩
  induction n generalizing bytes with
  | zero => simp [List.length_eq_zero_iff.1 hn, ofNat]
  | succ n ih =>
    obtain ⟨front, b, rfl⟩ : ∃ front b, bytes = front ++ [b] :=
      ⟨_, _, (List.dropLast_concat_getLast (by rintro rfl; simp at hn)).symm⟩
    have hf : front.length = n := by simpa using hn
    have hb : b.toNat < 256 := b.toNat_lt
    rw [hn, ofNat, toNat_concat]
    have hd : (256 * toNat front + b.toNat) / 256 = toNat front := by omega
    rw [hd, ← hf, ih front hf]
    congr 2
    apply UInt8.toNat_inj.1
    rw [UInt8.toNat_ofNat']
    omega

@[simp] theorem toNat_significant (bytes : List UInt8) :
    toNat (significant bytes) = toNat bytes := by
  induction bytes with
  | nil => rfl
  | cons b bytes ih =>
    by_cases hb : b = 0
    · subst hb
      rw [toNat_cons]
      simpa [significant] using ih
    · simp [significant, hb]

theorem significant_of_head {bytes : List UInt8} (h : bytes.head? ≠ some 0) :
    significant bytes = bytes := by
  cases bytes with
  | nil => rfl
  | cons b bytes =>
    have hb : b ≠ 0 := by simpa using h
    simp [significant, hb]

theorem head_significant (bytes : List UInt8) : (significant bytes).head? ≠ some 0 := by
  induction bytes with
  | nil => simp [significant]
  | cons b bytes ih =>
    by_cases hb : b = 0
    · simpa [significant, hb] using ih
    · simp [significant, hb]

theorem length_significant_le (bytes : List UInt8) :
    (significant bytes).length ≤ bytes.length :=
  (List.dropWhile_sublist _).length_le

theorem significant_replicate_append (k : Nat) (bytes : List UInt8) :
    significant (List.replicate k 0 ++ bytes) = significant bytes :=
  List.dropWhile_append_of_pos fun b hb => by simp [List.eq_of_mem_replicate hb]

theorem toNat_replicate_append (k : Nat) (bytes : List UInt8) :
    toNat (List.replicate k 0 ++ bytes) = toNat bytes := by
  rw [← toNat_significant, significant_replicate_append, toNat_significant]

theorem ofNat_toNat_of_le {w : Nat} {bytes : List UInt8} (h : bytes.length ≤ w) :
    ofNat w (toNat bytes) = List.replicate (w - bytes.length) 0 ++ bytes := by
  have := ofNat_toNat (List.replicate (w - bytes.length) 0 ++ bytes)
  rwa [toNat_replicate_append, List.length_append, List.length_replicate,
    Nat.sub_add_cancel h] at this

theorem toNat_injective {a b : List UInt8} (hlength : a.length = b.length) (h : toNat a = toNat b) :
    a = b := by
  rw [← ofNat_toNat a, ← ofNat_toNat b, hlength, h]

/-- The last `w` bytes write the remainder modulo `256 ^ w`, and the bytes in front of them the
quotient. -/
theorem toNat_split (w : Nat) (bytes : List UInt8) :
    toNat (bytes.drop (bytes.length - w)) = toNat bytes % 256 ^ w ∧
      toNat (bytes.take (bytes.length - w)) = toNat bytes / 256 ^ w := by
  by_cases hw : w ≤ bytes.length
  · have hlength : (bytes.drop (bytes.length - w)).length = w := by
      rw [List.length_drop]
      omega
    have hsum := toNat_append (bytes.take (bytes.length - w)) (bytes.drop (bytes.length - w))
    have hlt := toNat_lt (bytes.drop (bytes.length - w))
    rw [hlength] at hsum hlt
    rw [List.take_append_drop] at hsum
    constructor
    · rw [hsum, Nat.mul_add_mod, Nat.mod_eq_of_lt hlt]
    · rw [hsum, Nat.mul_add_div (Nat.pow_pos (by decide)), Nat.div_eq_of_lt hlt, Nat.add_zero]
  · have hlt : toNat bytes < 256 ^ w :=
      Nat.lt_of_lt_of_le (toNat_lt bytes) (Nat.pow_le_pow_right (by decide) (by omega))
    rw [Nat.sub_eq_zero_of_le (by omega), Nat.mod_eq_of_lt hlt, Nat.div_eq_of_lt hlt]
    exact ⟨rfl, rfl⟩

end SlotIndex.BigEndian
