import CreationGate.Bytes.Basic

/-!
# Hexadecimal text

Bytes are written as two lower-case digits each; reading accepts both cases.  The digits are
themselves bytes (ASCII), because the texts that hold them are read byte by byte.
-/

namespace CreationGate

namespace Hex

/-- The ASCII code of the lower-case digit with value `n % 16`. -/
def digit (n : Nat) : UInt8 :=
  let n := n % 16
  UInt8.ofNat (if n < 10 then 48 + n else 87 + n)

/-- The value of a digit, of either case. -/
def value? (c : UInt8) : Option Nat :=
  let n := c.toNat
  if 48 ≤ n ∧ n ≤ 57 then some (n - 48)
  else if 97 ≤ n ∧ n ≤ 102 then some (n - 87)
  else if 65 ≤ n ∧ n ≤ 70 then some (n - 55)
  else none

/-- The digits of a byte string, high half of each byte first. -/
def encode (bytes : Bytes) : Bytes :=
  bytes.flatMap fun b => [digit (b.toNat / 16), digit (b.toNat % 16)]

/-- The bytes that pairs of digits spell; `none` on an odd count or another character. -/
def decode : Bytes → Option Bytes
  | [] => some []
  | [_] => none
  | hi :: lo :: rest =>
    match value? hi, value? lo, decode rest with
    | some h, some l, some bytes => some (UInt8.ofNat (16 * h + l) :: bytes)
    | _, _, _ => none

@[simp] theorem length_encode (bytes : Bytes) : (encode bytes).length = 2 * bytes.length := by
  induction bytes with
  | nil => rfl
  | cons b rest ih => simp [encode] at ih ⊢; omega

/-- A written digit reads back as its value. -/
theorem value?_digit {n : Nat} (h : n < 16) : value? (digit n) = some n := by
  have : ∀ m : Fin 16, value? (digit m.val) = some m.val := by decide
  exact this ⟨n, h⟩

/-- Written digits read back as the bytes they came from. -/
theorem decode_encode (bytes : Bytes) : decode (encode bytes) = some bytes := by
  induction bytes with
  | nil => rfl
  | cons b rest ih =>
    have hb : b.toNat < 256 := UInt8.toNat_lt b
    have hcons : encode (b :: rest)
        = digit (b.toNat / 16) :: digit (b.toNat % 16) :: encode rest := rfl
    rw [hcons, decode, value?_digit (by omega), value?_digit (by omega), ih]
    have : 16 * (b.toNat / 16) + b.toNat % 16 = b.toNat := by omega
    simp [this]

/-- Bytes of ASCII as a text. -/
def text (ascii : Bytes) : String :=
  String.ofList (ascii.map fun b => Char.ofNat b.toNat)

/-- The digits of a byte string behind the marker `0x`. -/
def prefixed (bytes : Bytes) : String :=
  "0x" ++ text (encode bytes)

end Hex

end CreationGate
