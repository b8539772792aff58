import CreationGate.Evm.Config
import CreationGate.Word

/-!
# Transactions
-/

namespace CreationGate

/-- The form of a transaction. -/
inductive TransactionType where
  | legacy
  | accessList
  | dynamicFee
  | blob
  | setCode
  | custom (number : Nat)
deriving DecidableEq

namespace TransactionType

/-- The form with a number. -/
def ofNat : Nat → TransactionType
  | 0 => legacy
  | 1 => accessList
  | 2 => dynamicFee
  | 3 => blob
  | 4 => setCode
  | n => custom n

/-- Whether the form has to say which chain it is for. -/
def requiresChainId : TransactionType → Bool
  | legacy => false
  | custom _ => false
  | _ => true

/-- Whether the form has one gas price instead of a maximum and a priority fee. -/
def hasFixedPrice : TransactionType → Bool
  | legacy => true
  | accessList => true
  | _ => false

end TransactionType

/-- A recovered permission to let an address run the code of another. -/
structure Authorization where
  /-- The chain it is for; zero is every chain. -/
  chainId : Nat
  address : Address
  nonce : Nat
  authority : Address
deriving DecidableEq

/-- A transaction with a known sender. -/
structure Transaction where
  caller : Address
  /-- Who is called; nobody in a contract creation. -/
  target : Option Address := none
  data : Bytes := []
  gasLimit : Nat := 10000000
  /-- The gas price, or the most that is paid for gas. -/
  gasPrice : Nat := 0
  priorityFee : Option Nat := none
  value : Nat := 0
  nonce : Nat := 0
  chainId : Option Nat := some 1
  type : TransactionType := .legacy
  accessList : List (Address × List Word) := []
  blobHashes : List Digest := []
  maxBlobFee : Nat := 0
  authorizations : List Authorization := []
deriving DecidableEq

namespace Transaction

/-- Whether the transaction creates a contract. -/
def isCreation (tx : Transaction) : Bool := tx.target.isNone

/-- What is paid for a unit of gas over a base fee. -/
def effectiveGasPrice (tx : Transaction) (baseFee : Nat) : Nat :=
  if tx.type.hasFixedPrice then tx.gasPrice
  else
    match tx.priorityFee with
    | none => tx.gasPrice
    | some fee => min tx.gasPrice (baseFee + fee)

/-- The gas that the blobs take. -/
def blobGas (tx : Transaction) : Nat := 131072 * tx.blobHashes.length

/-- What the blobs cost at a price; the cost stops growing at the largest 128-bit number. -/
def blobCharge (tx : Transaction) (price : Nat) : Nat := min (tx.blobGas * price) maxUInt128

/-- The addresses and slots announced; the oldest form announces none. -/
def announced (tx : Transaction) : List (Address × List Word) :=
  if tx.type = .legacy then [] else tx.accessList

end Transaction

end CreationGate
