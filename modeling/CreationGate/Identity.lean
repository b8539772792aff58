import CreationGate.Hash.Keccak
import CreationGate.Hash.Blake2b

/-!
# Addresses and accounts

A transaction names its sender by a 20-byte address; governance and the registry know 32-byte
accounts.  The account of an address is a digest of the marked address, so it is recomputed
wherever it is needed and no table has to be kept.
-/

namespace CreationGate

/-- A text of ASCII as bytes. -/
def Bytes.ofAscii (text : String) : Bytes :=
  text.toList.map fun c => UInt8.ofNat c.toNat

/-- A sender or contract address. -/
abbrev Address := FixedBytes 20

/-- A native account. -/
abbrev Account := FixedBytes 32

instance : Std.TransOrd Address := inferInstance
instance : Std.LawfulEqOrd Address := inferInstance
instance : Std.TransOrd Account := inferInstance
instance : Std.LawfulEqOrd Account := inferInstance

/-- What stands before an address when its account is derived. -/
def addressMarker : Bytes := Bytes.ofAscii "evm:"

/-- The account that an address stands for. -/
def Account.ofAddress (address : Address) : Account :=
  blake2b256 (addressMarker ++ address.bytes)

namespace Address

def zero : Address := .repeated 20 0

/-- Capitalizes a hexadecimal letter if the digest has a high half-byte in its place. -/
private def capitalize (c nibble : UInt8) : UInt8 :=
  if 97 ≤ c && 8 ≤ nibble then c - 32 else c

/-- The mixed-case spelling of an address, whose capitals are a checksum: a letter is capital
where the digest of the lower-case digits has a half-byte of at least eight. -/
def checksummed (address : Address) : String :=
  let digits := Hex.encode address.bytes
  let nibbles := (keccak256 digits).bytes.flatMap fun b => [b / 16, b % 16]
  "0x" ++ Hex.text (digits.zipWith capitalize nibbles)

/-- The length-marked spelling of a nonce inside a list: small numbers stand for themselves. -/
private def nonceItem (nonce : Nat) : Bytes :=
  let spelled := (Bytes.ofNat 8 nonce).dropWhile (· == 0)
  match spelled with
  | [b] => if b < 0x80 then [b] else [0x81, b]
  | _ => UInt8.ofNat (0x80 + spelled.length) :: spelled

/-- The last 20 bytes of a digest. -/
def ofDigest (digest : Digest) : Address :=
  ⟨digest.bytes.drop 12, by simp [digest.length_eq]⟩

/-- The address of the contract that a sender creates at a nonce. -/
def created (sender : Address) (nonce : Nat) : Address :=
  let payload := 0x94 :: sender.bytes ++ nonceItem nonce
  ofDigest (keccak256 (UInt8.ofNat (0xc0 + payload.length) :: payload))

/-- The address of the contract that a sender creates from a salt and the digest of the
initialization code. -/
def createdSalted (sender : Address) (salt initCode : Digest) : Address :=
  ofDigest (keccak256 (0xff :: sender.bytes ++ salt.bytes ++ initCode.bytes))

end Address

end CreationGate
