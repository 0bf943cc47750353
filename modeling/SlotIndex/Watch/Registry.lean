import SlotIndex.Keccak
import SlotIndex.Table

/-!
# Registered transformers

The transformers of the watched contracts, by address. Diffs name a contract by the hash of its
address; what a hash resolves to is remembered.

* `Registry.register`: a later transformer for an address replaces the earlier one.
* `Registry.resolve`: the transformer for a hashed address.
* `resolve_resolve`: what is remembered of one hash makes no difference to any other.
-/

namespace SlotIndex

/-- The transformers of the watched contracts. `T` stands for a transformer. -/
structure Registry (T : Type) where
  transformers : Table Address T
  /-- Hashed addresses that have been resolved. -/
  resolved : Table Word T

namespace Registry

variable {T : Type}

/-- No transformer is registered. -/
def empty : Registry T := ⟨Table.empty, Table.empty⟩

/-- Register a transformer for an address. -/
def register (r : Registry T) (address : Address) (transformer : T) : Registry T :=
  { r with transformers := r.transformers.insert address transformer }

/-- Register transformers one after the other. -/
def ofList (ts : List (Address × T)) : Registry T :=
  ts.foldl (fun r t => r.register t.1 t.2) empty

/-- The transformer whose address has a hash, found by hashing the registered addresses. -/
def scan (r : Registry T) (account : Word) : Option T :=
  (r.transformers.entries.find? fun e => e.1.hash = account).map Prod.snd

/-- The transformer for a hashed address, and the registry that remembers it. -/
def resolve (r : Registry T) (account : Word) : Option T × Registry T :=
  match r.resolved.get? account with
  | some t => (some t, r)
  | none =>
    match r.scan account with
    | none => (none, r)
    | some t => (some t, { r with resolved := r.resolved.insert account t })

/-- A hash resolves to what is remembered of it, else to what the scan finds. -/
theorem fst_resolve (r : Registry T) (account : Word) :
    (r.resolve account).1 = (r.resolved.get? account).or (r.scan account) := by
  cases hget : r.resolved.get? account with
  | some t => simp only [resolve, hget, Option.some_or]
  | none => cases hscan : r.scan account <;> simp only [resolve, hget, hscan, Option.none_or]

theorem resolve_resolve (r : Registry T) (account other : Word) :
    ((r.resolve account).2.resolve other).1 = (r.resolve other).1 := by
  cases hget : r.resolved.get? account with
  | some t => simp only [resolve, hget]
  | none =>
    cases hscan : r.scan account with
    | none => simp only [resolve, hget, hscan]
    | some t =>
      have hafter : (r.resolve account).2 = { r with resolved := r.resolved.insert account t } := by
        simp only [resolve, hget, hscan]
      rw [hafter, fst_resolve, fst_resolve, Table.get?_insert]
      by_cases hother : other = account
      · rw [if_pos hother, hother, hget, hscan]
        rfl
      · rw [if_neg hother]
        rfl

end Registry

end SlotIndex
