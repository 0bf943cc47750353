/-!
# Classes of characters

A class of characters is written as the codes at which it begins and ends by turns, in increasing
order.

* `turned`: whether an odd number of turns lies at or below a code.
* `turned_of_lt`: codes below the first turn are outside.
* `toNat_of_isAlphanum`: the codes of the letters and digits of ASCII.
-/

namespace SlotIndex.Text

/-- Whether an odd number of turns lies at or below a code. The turns increase. -/
def turned : (turns : List Nat) → Nat → Bool
  | [], _ => false
  | t :: rest, n => if n < t then false else !turned rest n

theorem turned_of_lt {t n : Nat} {rest : List Nat} (h : n < t) : turned (t :: rest) n = false := by
  simp [turned, h]

theorem turned_of_le {t n : Nat} {rest : List Nat} (h : t ≤ n) :
    turned (t :: rest) n = !turned rest n := by
  simp [turned, Nat.not_lt.2 h]

theorem toNat_of_isAlphanum {c : Char} (h : c.isAlphanum) :
    c.toNat < 123 ∧ ((65 ≤ c.toNat ∧ c.toNat ≤ 90) ∨ (97 ≤ c.toNat ∧ c.toNat ≤ 122)
      ∨ (48 ≤ c.toNat ∧ c.toNat ≤ 57)) := by
  have hc : c.toNat = c.val.toNat := rfl
  have h : ((decide (c.val ≥ 65 ∧ c.val ≤ 90) || (decide (c.val ≥ 97) && decide (c.val ≤ 122)))
      || (decide (c.val ≥ 48) && decide (c.val ≤ 57))) = true := h
  simp only [Bool.or_eq_true, Bool.and_eq_true, decide_eq_true_eq, UInt32.le_iff_toNat_le,
    ge_iff_le] at h
  simp at h
  omega

end SlotIndex.Text
