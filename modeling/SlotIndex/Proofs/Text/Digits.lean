import Mathlib.Data.List.Forall2

/-!
# Texts of digits

A text of digits with the values of its digits, whatever characters count as digits.

* `Digits`.
* **`Digits.forall_mem`**: what holds of digits holds of the characters of the text.
-/

namespace SlotIndex.Text

variable {isDigit : Char → Nat → Prop}

/-- A text of digits with their values. -/
def Digits (isDigit : Char → Nat → Prop) : List Char → List Nat → Prop := List.Forall₂ isDigit

instance [∀ c n, Decidable (isDigit c n)] (text : List Char) (values : List Nat) :
    Decidable (Digits isDigit text values) :=
  inferInstanceAs (Decidable (List.Forall₂ isDigit text values))

theorem Digits.forall_mem {P : Char → Prop} {text : List Char} {values : List Nat}
    (h : Digits isDigit text values) (hP : ∀ {c n}, isDigit c n → P c) : ∀ c ∈ text, P c := by
  induction h with
  | nil => exact nofun
  | cons hc _ ih => exact List.forall_mem_cons.2 ⟨hP hc, ih⟩

end SlotIndex.Text
