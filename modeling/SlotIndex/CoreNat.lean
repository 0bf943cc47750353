/-!
# Arithmetic of core

Powers and the zero of natural numbers as they are in core, whatever else is imported. A module that opens
this namespace means the same with and without the algebra of a larger library.

* `natPow`, `natZero`.
-/

namespace SlotIndex.CoreNat

scoped instance (priority := 2000) natPow : Pow Nat Nat := instPowNat

scoped instance (priority := 2000) natZero : Zero Nat := Zero.ofOfNat0

end SlotIndex.CoreNat
