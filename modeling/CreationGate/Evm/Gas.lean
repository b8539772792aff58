import CreationGate.Word
import CreationGate.Evm.Transaction

/-!
# Gas

The prices of what a transaction does.
-/

namespace CreationGate

namespace Gas

/-- How many 32-byte words hold `n` bytes. -/
def words (n : Nat) : Nat := (n + 31) / 32

/-- The price of a memory of `w` words. -/
def memory (w : Nat) : Nat := 3 * w + w * w / 512

/-- The price of reading initialization code of `n` bytes. -/
def initCode (n : Nat) : Nat := 2 * words n

/-- The price of a creation, apart from what the new contract spends. -/
def create : Nat := 32000

/-- The price of hashing initialization code of `n` bytes for a salted address. -/
def saltedHash (n : Nat) : Nat := 6 * words n

/-- The price of a byte of deployed code. -/
def codeDeposit : Nat := 200

/-- The gas that a write to a slot has to leave untouched. -/
def callStipend : Nat := 2300

/-- What is added to the price of a slot that was not announced or used before. -/
def coldSlot : Nat := 2100

/-- The price of writing `new` to a slot, warm or not. -/
def store (initial present new : Word) : Nat :=
  if new = present then 100
  else if initial = present then (if initial = 0 then 20000 else 2900)
  else 100

/-- What writing `new` to a slot gives back at the end, or takes from an earlier refund. -/
def storeRefund (initial present new : Word) : Int :=
  if new = present then 0
  else if initial = present ∧ new = 0 then 4800
  else
    let cleared : Int :=
      if initial = 0 then 0
      else if present = 0 then -4800
      else if new = 0 then 4800
      else 0
    let restored : Int :=
      if initial ≠ new then 0
      else if initial = 0 then 19900
      else 2800
    cleared + restored

/-! ## The price of a transaction -/

/-- The size of transaction data as it is priced: a non-zero byte counts as four zero ones. -/
def dataTokens (data : Bytes) : Nat :=
  data.foldl (fun n b => n + if b = 0 then 1 else 4) 0

/-- The price of a transaction before it does anything: its data, its being a creation, the
addresses and slots it announces, and its authorizations. -/
def intrinsic (spec : Spec) (tx : Transaction) : Nat :=
  let base := 21000 + 4 * dataTokens tx.data
  let creation :=
    if tx.isCreation then
      32000 + (if spec.includes .shanghai then initCode tx.data.length else 0)
    else 0
  let announced := tx.announced.foldl (fun n item => n + 2400 + 1900 * item.2.length) 0
  let authorizations :=
    if spec.includes .prague then 25000 * tx.authorizations.length else 0
  base + creation + announced + authorizations

/-- The least that a transaction uses for its data, from the Prague rules on. -/
def floor (spec : Spec) (tx : Transaction) : Nat :=
  if spec.includes .prague then 21000 + 10 * dataTokens tx.data else 0

end Gas

end CreationGate
