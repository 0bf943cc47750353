import SlotIndex.Word

/-!
# Keccak-256

The hash that names accounts and places mapping entries: the sponge over the permutation
Keccak-f[1600] with rate 136 bytes and the padding `0x01 … 0x80`.

* `State`: five rows of five 64-bit lanes.
* `permute`: the 24 rounds.
* `keccak256`: the first 32 bytes squeezed after absorbing a byte list.
-/

namespace SlotIndex.Keccak

/-- Five lanes with one `y` coordinate. -/
structure Row where
  x0 : UInt64
  x1 : UInt64
  x2 : UInt64
  x3 : UInt64
  x4 : UInt64

/-- The 25 lanes of the permutation, by `y` coordinate. -/
structure State where
  y0 : Row
  y1 : Row
  y2 : Row
  y3 : Row
  y4 : Row

/-- Rotation of a lane to the left. -/
def rotate (lane : UInt64) (n : UInt64) : UInt64 :=
  (lane <<< n) ||| (lane >>> (64 - n))

/-- Lanewise exclusive or. -/
def Row.xor (a b : Row) : Row :=
  ⟨a.x0 ^^^ b.x0, a.x1 ^^^ b.x1, a.x2 ^^^ b.x2, a.x3 ^^^ b.x3, a.x4 ^^^ b.x4⟩

/-- The zero state. -/
def State.zero : State :=
  let row : Row := ⟨0, 0, 0, 0, 0⟩
  ⟨row, row, row, row, row⟩

/-- Every lane takes in the parities of two neighbouring columns. -/
def theta (s : State) : State :=
  let c := (((s.y0.xor s.y1).xor s.y2).xor s.y3).xor s.y4
  let d : Row := ⟨c.x4 ^^^ rotate c.x1 1, c.x0 ^^^ rotate c.x2 1, c.x1 ^^^ rotate c.x3 1,
    c.x2 ^^^ rotate c.x4 1, c.x3 ^^^ rotate c.x0 1⟩
  ⟨s.y0.xor d, s.y1.xor d, s.y2.xor d, s.y3.xor d, s.y4.xor d⟩

/-- Every lane is rotated by its own amount and moved to its new place. -/
def rhoPi (s : State) : State :=
  ⟨⟨s.y0.x0, rotate s.y1.x1 44, rotate s.y2.x2 43, rotate s.y3.x3 21, rotate s.y4.x4 14⟩,
   ⟨rotate s.y0.x3 28, rotate s.y1.x4 20, rotate s.y2.x0 3, rotate s.y3.x1 45, rotate s.y4.x2 61⟩,
   ⟨rotate s.y0.x1 1, rotate s.y1.x2 6, rotate s.y2.x3 25, rotate s.y3.x4 8, rotate s.y4.x0 18⟩,
   ⟨rotate s.y0.x4 27, rotate s.y1.x0 36, rotate s.y2.x1 10, rotate s.y3.x2 15, rotate s.y4.x3 56⟩,
   ⟨rotate s.y0.x2 62, rotate s.y1.x3 55, rotate s.y2.x4 39, rotate s.y3.x0 41, rotate s.y4.x1 2⟩⟩

/-- The only step that is not linear, row by row. -/
def chi (r : Row) : Row :=
  ⟨r.x0 ^^^ (~~~ r.x1 &&& r.x2), r.x1 ^^^ (~~~ r.x2 &&& r.x3), r.x2 ^^^ (~~~ r.x3 &&& r.x4),
   r.x3 ^^^ (~~~ r.x4 &&& r.x0), r.x4 ^^^ (~~~ r.x0 &&& r.x1)⟩

/-- One round of the permutation, with its constant. -/
def round (s : State) (constant : UInt64) : State :=
  let t := rhoPi (theta s)
  let row := chi t.y0
  ⟨{ row with x0 := row.x0 ^^^ constant }, chi t.y1, chi t.y2, chi t.y3, chi t.y4⟩

/-- The constants of the 24 rounds. -/
def roundConstants : List UInt64 :=
  [0x0000000000000001, 0x0000000000008082, 0x800000000000808A, 0x8000000080008000,
   0x000000000000808B, 0x0000000080000001, 0x8000000080008081, 0x8000000000008009,
   0x000000000000008A, 0x0000000000000088, 0x0000000080008009, 0x000000008000000A,
   0x000000008000808B, 0x800000000000008B, 0x8000000000008089, 0x8000000000008003,
   0x8000000000008002, 0x8000000000000080, 0x000000000000800A, 0x800000008000000A,
   0x8000000080008081, 0x8000000000008080, 0x0000000080000001, 0x8000000080008008]

/-- The permutation Keccak-f[1600]. -/
def permute (s : State) : State :=
  roundConstants.foldl round s

/-- Bytes per absorbed block. -/
def rate : Nat := 136

/-- The bytes that fill a message up to a multiple of the rate. -/
def padding (length : Nat) : List UInt8 :=
  match rate - length % rate with
  | 0 => []
  | 1 => [0x81]
  | k + 2 => 0x01 :: (List.replicate k 0x00 ++ [0x80])

/-- The lane that eight bytes write, least significant byte first. -/
def lane (bytes : List UInt8) : UInt64 :=
  bytes.foldr (fun b n => n <<< 8 ||| b.toUInt64) 0

/-- Groups of eight bytes as lanes; a group that is not full is left out. -/
def lanes : List UInt8 → List UInt64
  | b0 :: b1 :: b2 :: b3 :: b4 :: b5 :: b6 :: b7 :: rest =>
    lane [b0, b1, b2, b3, b4, b5, b6, b7] :: lanes rest
  | _ => []

/-- Absorb one block of 17 lanes: they join the first lanes of the state, which is then
permuted. -/
def absorbBlock (s : State) : List UInt64 → State
  | [a0, a1, a2, a3, a4, b0, b1, b2, b3, b4, c0, c1, c2, c3, c4, d0, d1] =>
    permute ⟨s.y0.xor ⟨a0, a1, a2, a3, a4⟩, s.y1.xor ⟨b0, b1, b2, b3, b4⟩,
      s.y2.xor ⟨c0, c1, c2, c3, c4⟩, s.y3.xor ⟨d0, d1, 0, 0, 0⟩, s.y4⟩
  | _ => s

/-- Absorb a number of blocks, one after the other. -/
def absorb : (blocks : Nat) → State → List UInt64 → State
  | 0, s, _ => s
  | n + 1, s, ls => absorb n (absorbBlock s (ls.take 17)) (ls.drop 17)

/-- The eight bytes of a lane, least significant first. -/
def laneBytes (l : UInt64) : List UInt8 :=
  (BigEndian.ofNat 8 l.toNat).reverse

end SlotIndex.Keccak

namespace SlotIndex

/-- The Keccak-256 hash of a byte list. -/
def keccak256 (message : List UInt8) : Word :=
  let padded := message ++ Keccak.padding message.length
  let s := Keccak.absorb (padded.length / Keccak.rate) Keccak.State.zero (Keccak.lanes padded)
  Word.ofBytes ([s.y0.x0, s.y0.x1, s.y0.x2, s.y0.x3].flatMap Keccak.laneBytes)

/-- The key of a contract's account: the hash of its address. -/
def Address.hash (a : Address) : Word := keccak256 a.bytes

/-- The hash of a word, under which some sources report a storage key. -/
def Word.hash (w : Word) : Word := keccak256 w.bytes

end SlotIndex
