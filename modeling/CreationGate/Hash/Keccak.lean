import CreationGate.Bytes.Fixed

/-!
# Keccak-256

The sponge over a state of 25 lanes with a rate of 136 bytes and the first-generation
padding (`0x01` up to `0x80`).  Lane `x + 5 * y` of the state stands at column `x`, row `y`.
-/

namespace CreationGate

namespace Keccak

/-- The permuted state, 25 lanes of 64 bits. -/
abbrev State := Vector UInt64 25

/-- Rotation of a lane towards its high end. -/
def rotl (w : UInt64) (n : UInt64) : UInt64 :=
  if n = 0 then w else (w <<< n) ||| (w >>> (64 - n))

/-- The round constants. -/
def roundConstants : List UInt64 :=
  [0x0000000000000001, 0x0000000000008082, 0x800000000000808a, 0x8000000080008000,
   0x000000000000808b, 0x0000000080000001, 0x8000000080008081, 0x8000000000008009,
   0x000000000000008a, 0x0000000000000088, 0x0000000080008009, 0x000000008000000a,
   0x000000008000808b, 0x800000000000008b, 0x8000000000008089, 0x8000000000008003,
   0x8000000000008002, 0x8000000000000080, 0x000000000000800a, 0x800000008000000a,
   0x8000000080008081, 0x8000000000008080, 0x0000000080000001, 0x8000000080008008]

/-- How far each lane is rotated. -/
def rotations : Vector UInt64 25 :=
  #v[0, 1, 62, 28, 27, 36, 44, 6, 55, 20, 3, 10, 43, 25, 39, 41, 45, 15, 21, 8, 18, 2, 61, 56, 14]

/-- Adds to each lane the parities of two neighbouring columns. -/
def theta (s : State) : State :=
  let parity : Vector UInt64 5 := .ofFn fun x =>
    s[x.val] ^^^ s[x.val + 5] ^^^ s[x.val + 10] ^^^ s[x.val + 15] ^^^ s[x.val + 20]
  let change : Vector UInt64 5 := .ofFn fun x =>
    parity[(x.val + 4) % 5] ^^^ rotl parity[(x.val + 1) % 5] 1
  .ofFn fun i => s[i] ^^^ change[i.val % 5]

/-- Rotates every lane and moves it to its new place. -/
def rhoPi (s : State) : State :=
  .ofFn fun i =>
    let x := i.val % 5
    let y := i.val / 5
    let source := (x + 3 * y) % 5 + 5 * x
    have : source < 25 := by omega
    rotl s[source] rotations[source]

/-- Mixes each lane with its two successors in the row. -/
def chi (s : State) : State :=
  .ofFn fun i =>
    let x := i.val % 5
    let row := 5 * (i.val / 5)
    have := i.isLt
    s[i] ^^^ (~~~ s[row + (x + 1) % 5] &&& s[row + (x + 2) % 5])

/-- One round with its constant. -/
def round (s : State) (constant : UInt64) : State :=
  let s := chi (rhoPi (theta s))
  s.set 0 (s[0] ^^^ constant)

/-- The permutation of the state. -/
def permute (s : State) : State :=
  roundConstants.foldl round s

/-- The bytes taken in before each permutation. -/
def rate : Nat := 136

/-- Adds one block of input to the state and permutes. -/
def absorb (s : State) (block : Bytes) : State :=
  let lanes := (Bytes.chunks 8 block).map Bytes.toLane
  permute (.ofFn fun i => s[i] ^^^ (lanes[i.val]?.getD 0))

/-- The bytes that fill up the last block. -/
def padding (length : Nat) : Bytes :=
  let missing := rate - length % rate
  if missing = 1 then [0x81] else 0x01 :: Bytes.zeros (missing - 2) ++ [0x80]

/-- The state after all input. -/
def absorbAll (message : Bytes) : State :=
  (Bytes.chunks rate (message ++ padding message.length)).foldl absorb (.replicate 25 0)

end Keccak

/-- A digest of 32 bytes. -/
abbrev Digest := FixedBytes 32

/-- The Keccak-256 digest of a byte string. -/
def keccak256 (message : Bytes) : Digest :=
  let s := Keccak.absorbAll message
  ⟨Bytes.ofLane s[0] ++ Bytes.ofLane s[1] ++ Bytes.ofLane s[2] ++ Bytes.ofLane s[3], by simp⟩

end CreationGate
