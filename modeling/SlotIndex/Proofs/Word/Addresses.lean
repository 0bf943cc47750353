import SlotIndex.Proofs.Diff.Acceptance

/-!
# Addresses that are read from text

* `Address.IsWrittenIn`: 40 digits of either case, behind a mark or none, that write an address.
* **`Address.parse_eq_ok_iff`**: they are read, and nothing else is.
-/

namespace SlotIndex.Address

open scoped CoreNat

/-- A text writes an address: it holds 40 digits of either case, behind a mark or none. -/
def IsWrittenIn (a : Address) (text : String) : Prop :=
  ∃ mark digits values, text.toList = mark ++ digits ∧
    (mark = [] ∨ mark = ['0', 'x'] ∨ mark = ['0', 'X']) ∧ Hex.Digits digits values ∧
    digits.length = 40 ∧ Hex.number values = a.toNat

/-- The address of 20 bytes is the number that they write. -/
theorem toNat_ofBytes {bytes : List UInt8} (h : bytes.length = 20) :
    (ofBytes bytes).toNat = BigEndian.toNat bytes := by
  have hlt := BigEndian.toNat_lt bytes
  rw [h] at hlt
  exact Nat.mod_eq_of_lt hlt

/-- **What is read as an address** is a text that writes it. -/
theorem parse_eq_ok_iff {a : Address} {text : String} : parse text = .ok a ↔ a.IsWrittenIn text := by
  simp only [parse, map_eq_ok, Hex.decodeExactly_eq_ok_iff, Hex.decode_eq_ok_iff]
  constructor
  · rintro ⟨bytes, ⟨⟨values, hdigits, hlength, hnumber⟩, hbytes⟩, rfl⟩
    have hforty : (Hex.unmarked text.toList).length = 40 := by omega
    rw [← toNat_ofBytes hbytes] at hnumber
    obtain ⟨-, htext⟩ | ⟨x, rfl | rfl, htext⟩ := Hex.unmarked_cases text.toList
    · exact ⟨[], _, values, htext.symm, .inl rfl, hdigits, hforty, hnumber.symm⟩
    · exact ⟨['0', 'x'], _, values, htext, .inr (.inl rfl), hdigits, hforty, hnumber.symm⟩
    · exact ⟨['0', 'X'], _, values, htext, .inr (.inr rfl), hdigits, hforty, hnumber.symm⟩
  · rintro ⟨mark, digits, values, htext, hmark, hdigits, hforty, hnumber⟩
    have hunmarked : Hex.unmarked text.toList = digits := by
      rw [htext, Hex.unmarked_mark hmark hdigits]
    rw [← hunmarked] at hdigits hforty
    obtain ⟨bytes, -, hlength, hbytes⟩ := Hex.exists_decode hdigits (by omega)
    have htwenty : bytes.length = 20 := by omega
    refine ⟨bytes, ⟨⟨values, hdigits, hlength, hbytes⟩, htwenty⟩, ext ?_⟩
    rw [toNat_ofBytes htwenty, hbytes, hnumber]

end SlotIndex.Address
