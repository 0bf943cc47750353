import SlotIndex.Error

/-!
# Bins of a range

A range of heights is worked off in bins of consecutive heights. All bins but the last hold as many
heights as the batch size says. Heights are 64-bit numbers and so is the arithmetic on them. Room for the
bins is made before the first of them is known, and room for the heights of a bin before they are listed:
the program breaks down where there can be no room for as many.

* `Bin`, `Bin.heights`, `Bin.hasRoom`.
* `splitRange`: the bins of a range; `SplitFault`: why there are none.
* `BackfillError`: what goes wrong while a range is worked off.
-/

namespace SlotIndex

/-- What goes wrong while a range of heights is worked off. -/
inductive BackfillError where
  | invalidRange (first last : UInt64)
  | zeroBatchSize
  /-- Nothing could be fetched for the heights of a whole bin, or for one height. -/
  | fetch (first last : UInt64) (source : StorageError)
  | decode (height : UInt64) (source : StorageError)
  | normalize (height : UInt64) (source : StorageError)
deriving DecidableEq

namespace BackfillError

/-- The wording of an error. -/
def message : BackfillError → String
  | .invalidRange first last =>
    s!"ending block {Decimal.text last.toNat} is before starting block {Decimal.text first.toNat}"
  | .zeroBatchSize => "batch size must be greater than zero"
  | .fetch first last source =>
    s!"fetching state diffs for blocks {Decimal.text first.toNat}-{Decimal.text last.toNat} "
      ++ s!"failed: {source.message}"
  | .decode height source =>
    s!"decoding state diff at block {Decimal.text height.toNat} failed: {source.message}"
  | .normalize height source =>
    s!"normalizing storage diff at block {Decimal.text height.toNat} failed: {source.message}"

/-- The error that an error comes from. -/
def source? : BackfillError → Option StorageError
  | .invalidRange .. | .zeroBatchSize => none
  | .fetch _ _ source | .decode _ source | .normalize _ source => some source

end BackfillError

/-! ## Room -/

/-- The most bytes that a list can take. -/
def maxBytes : Nat := 9223372036854775807

/-- Whether a list can hold a number of values of so many bytes each. -/
def listFits (count bytes : Nat) : Bool := count * bytes ≤ maxBytes

/-- The bytes of a height in a list. -/
def heightBytes : Nat := 8

/-- The bytes of a bin in a list: both ends, and whether all heights have been taken from it. -/
def binBytes : Nat := 24

/-! ## Bins -/

/-- Consecutive heights, both ends included. -/
structure Bin where
  first : UInt64
  last : UInt64
deriving DecidableEq, Inhabited

/-- The heights of a bin in ascending order. -/
def Bin.heights (b : Bin) : List UInt64 :=
  (List.range (b.last.toNat + 1 - b.first.toNat)).map fun i => UInt64.ofNat (b.first.toNat + i)

/-- Whether the heights of a bin can be listed. -/
def Bin.hasRoom (b : Bin) : Bool := listFits (b.last.toNat + 1 - b.first.toNat) heightBytes

/-! ## Splitting -/

/-- The largest 64-bit number. -/
def maxHeight : UInt64 := UInt64.ofNat (UInt64.size - 1)

/-- Addition that stops at the largest 64-bit number. -/
def saturatingAdd (a b : UInt64) : UInt64 :=
  if a + b < a then maxHeight else a + b

/-- The bins from a height on, in at most the given number of steps. -/
def binsFrom (last size : UInt64) : (steps : Nat) → (first : UInt64) → List Bin
  | 0, _ => []
  | steps + 1, first =>
    let binLast := min (saturatingAdd first (size - 1)) last
    ⟨first, binLast⟩ :: if binLast = last then [] else binsFrom last size steps (binLast + 1)

/-- The number of bins that room is made for. It is zero where the sum has left the 64-bit numbers. -/
def binCapacity (first last size : UInt64) : UInt64 :=
  (last - first) / size + 1

/-- Why there are no bins. -/
inductive SplitFault where
  /-- The range or the size is refused. -/
  | refused (error : BackfillError)
  /-- The program breaks down, because it has no room for the bins. -/
  | breakDown
deriving DecidableEq

/-- The bins of a range. The loop takes as many turns as there is room for bins. -/
def splitRange (first last size : UInt64) : Except SplitFault (List Bin) :=
  if last < first then .error (.refused (.invalidRange first last))
  else if size = 0 then .error (.refused .zeroBatchSize)
  else
    let capacity := binCapacity first last size
    if capacity = 0 ∨ listFits capacity.toNat binBytes = false then .error .breakDown
    else .ok (binsFrom last size capacity.toNat first)

end SlotIndex
