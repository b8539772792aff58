import CreationGate.SortedMap
import CreationGate.Identity
import CreationGate.Word

/-!
# Account state

What an account holds, and what a transaction has done to it so far.
-/

namespace CreationGate

/-- The digest of the empty byte string, which accounts without code carry. -/
def emptyCodeHash : Digest := keccak256 []

/-- An account apart from its storage. -/
structure AccountInfo where
  /-- The balance. -/
  balance : Nat := 0
  /-- How many transactions or creations the account has made. -/
  nonce : Nat := 0
  /-- The digest of the code. -/
  codeHash : Digest := emptyCodeHash
  /-- The code, if it is at hand; otherwise it is found by its digest. -/
  code : Option Bytes := some []
deriving DecidableEq

namespace AccountInfo

/-- Whether the account has no balance, nonce or code. -/
def isEmpty (info : AccountInfo) : Bool :=
  info.balance == 0 && info.nonce == 0 && info.codeHash == emptyCodeHash

/-- The account with given code. -/
def withCode (info : AccountInfo) (code : Bytes) : AccountInfo :=
  { info with code := some code, codeHash := keccak256 code }

end AccountInfo

/-- A storage slot during a transaction. -/
structure Slot where
  /-- The value when it was read. -/
  initial : Word
  /-- The value now. -/
  present : Word
  /-- Whether it is cheap to use again. -/
  warm : Bool := true
deriving DecidableEq

namespace Slot

/-- The slot as left by an undone frame that was the first to read it: with the value it was
read with, and cold. -/
def undone (slot : Slot) : Slot := ⟨slot.initial, slot.initial, false⟩

end Slot

/-- An account during a transaction. -/
structure LiveAccount where
  /-- Balance, nonce and code now. -/
  info : AccountInfo := {}
  /-- The slots read or written so far. -/
  slots : SortedMap Word Slot := ∅
  /-- Whether the account is to be written back. -/
  touched : Bool := false
  /-- Whether the transaction created the account. -/
  created : Bool := false
  /-- Whether the transaction destroyed the account. -/
  destroyed : Bool := false
  /-- Whether there was no such account before the transaction. -/
  missing : Bool := false
deriving DecidableEq

/-- The account with the slots that an undone frame has read of it since. -/
def LiveAccount.keepRead (live undone : LiveAccount) : LiveAccount :=
  { live with slots := (undone.slots.mapValues fun _ slot => slot.undone).extend live.slots }

/-- The accounts that a transaction has loaded. -/
abbrev LiveAccounts := SortedMap Address LiveAccount

/-- Delegation code: a marker and the address whose code runs instead. -/
def delegation (address : Address) : Bytes := [0xef, 0x01, 0x00] ++ address.bytes

/-- The address that code delegates to, if it is delegation code. -/
def delegate? (code : Bytes) : Option Address :=
  match code with
  | 0xef :: 0x01 :: 0x00 :: rest => FixedBytes.ofBytes? 20 rest
  | _ => none

end CreationGate
