/-!
# Byte strings

A byte string is a list of bytes.  Numbers are written big-endian, either in a given width
or in the fewest bytes that hold them, and `Bytes.toNat` reads both spellings back.
-/

namespace CreationGate

/-- A byte string. -/
abbrev Bytes := List UInt8

namespace Bytes

/-- The string of `n` zero bytes. -/
def zeros (n : Nat) : Bytes := List.replicate n 0

@[simp] theorem length_zeros (n : Nat) : (zeros n).length = n := by simp [zeros]

/-- The number that a byte string spells, most significant byte first. -/
def toNat (bytes : Bytes) : Nat :=
  bytes.foldl (fun acc b => acc * 256 + b.toNat) 0

/-- The last `width` base-256 digits of `n`, most significant byte first. -/
def ofNat : (width : Nat) → (n : Nat) → Bytes
  | 0, _ => []
  | width + 1, n => ofNat width (n / 256) ++ [UInt8.ofNat (n % 256)]

@[simp] theorem length_ofNat (width n : Nat) : (ofNat width n).length = width := by
  induction width generalizing n with
  | zero => rfl
  | succ width ih => simp [ofNat, ih]

@[simp] theorem toNat_nil : toNat [] = 0 := rfl

theorem toNat_append_singleton (bytes : Bytes) (b : UInt8) :
    toNat (bytes ++ [b]) = toNat bytes * 256 + b.toNat := by
  simp [toNat]

/-- Writing in `width` bytes keeps the low `8 * width` bits of the number. -/
theorem toNat_ofNat (width n : Nat) : toNat (ofNat width n) = n % 1 <<< (8 * width) := by
  simp only [Nat.shiftLeft_eq, Nat.one_mul]
  induction width generalizing n with
  | zero => rw [ofNat, toNat_nil, Nat.mul_zero, Nat.pow_zero, Nat.mod_one]
  | succ width ih =>
    have digit : (UInt8.ofNat (n % 256)).toNat = n % 256 := by
      rw [UInt8.toNat_ofNat']
      omega
    have wider : 2 ^ (8 * (width + 1)) = 256 * 2 ^ (8 * width) := by
      rw [Nat.mul_succ, Nat.pow_add, Nat.mul_comm]
    rw [ofNat, toNat_append_singleton, ih, digit, wider, Nat.mod_mul]
    omega

/-- The big-endian spelling of a 64-bit number without leading zero bytes; zero is the
empty string. -/
def ofUInt64 (n : UInt64) : Bytes :=
  (ofNat 8 n.toNat).dropWhile (· == 0)

/-- The eight bytes of a 64-bit word, least significant byte first. -/
def ofLane (w : UInt64) : Bytes :=
  [w.toUInt8, (w >>> 8).toUInt8, (w >>> 16).toUInt8, (w >>> 24).toUInt8,
   (w >>> 32).toUInt8, (w >>> 40).toUInt8, (w >>> 48).toUInt8, (w >>> 56).toUInt8]

@[simp] theorem length_ofLane (w : UInt64) : (ofLane w).length = 8 := rfl

/-- The 64-bit word that up to eight bytes spell, least significant byte first. -/
def toLane : Bytes → UInt64
  | [] => 0
  | b :: rest => b.toUInt64 ||| (toLane rest <<< 8)

/-- Cuts a byte string into pieces of `size` bytes; the last piece may be shorter. -/
def chunks (size : Nat) (bytes : Bytes) : List Bytes :=
  go bytes bytes.length
where
  /-- Cuts at most `fuel` pieces; a string never has more pieces than bytes. -/
  go (bytes : Bytes) : Nat → List Bytes
    | 0 => []
    | fuel + 1 =>
      match bytes with
      | [] => []
      | _ :: _ => bytes.take size :: go (bytes.drop size) fuel

/-! ## Cuts that can fail -/

/-- Why a byte string cannot be cut. -/
inductive CutError where
  /-- What is asked for would start behind the end. -/
  | startBehindEnd (start length : Nat)
  /-- The middle would be behind the end. -/
  | middleBehindEnd (middle length : Nat)
deriving DecidableEq

/-- The bytes from `start` on. -/
def suffixFrom (bytes : Bytes) (start : Nat) : Except CutError Bytes :=
  if start ≤ bytes.length then .ok (bytes.drop start)
  else .error (.startBehindEnd start bytes.length)

/-- The first `middle` bytes, and the bytes behind them. -/
def cutAt (bytes : Bytes) (middle : Nat) : Except CutError (Bytes × Bytes) :=
  if middle ≤ bytes.length then .ok (bytes.take middle, bytes.drop middle)
  else .error (.middleBehindEnd middle bytes.length)

end Bytes

end CreationGate
