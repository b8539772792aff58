import CreationGate.Evm.Account

/-!
# Why a transaction does not run
-/

namespace CreationGate

/-- A fault of a transaction that does not concern the gate. -/
inductive InvalidTransaction where
  | invalidChainId
  | missingChainId
  | gasLimitAboveCap (gasLimit cap : Nat)
  | gasPriceBelowBaseFee
  | priorityFeeAboveMax
  | blobsNotSupported
  | setCodeNotSupported
  | blobGasPriceAboveMax
  | emptyBlobs
  | blobVersionNotSupported
  | tooManyBlobs (count limit : Nat)
  | emptyAuthorizationList
  | gasLimitAboveBlock
  | initCodeSizeLimit
  | intrinsicGasAboveLimit (intrinsic gasLimit : Nat)
  | floorGasAboveLimit (floor gasLimit : Nat)
  | senderHasCode
  | nonceTooHigh (nonce expected : Nat)
  | nonceTooLow (nonce expected : Nat)
  | overflowPayment
  | lackOfFunds (fee balance : Nat)
deriving DecidableEq

/-- The text of a fault. -/
def InvalidTransaction.message : InvalidTransaction → String
  | invalidChainId => "invalid chain ID"
  | missingChainId => "missing chain ID"
  | gasLimitAboveCap gasLimit cap =>
    "transaction gas limit (" ++ toString gasLimit ++ ") is greater than the cap ("
      ++ toString cap ++ ")"
  | gasPriceBelowBaseFee => "gas price is less than basefee"
  | priorityFeeAboveMax => "priority fee is greater than max fee"
  | blobsNotSupported => "Eip4844 is not supported"
  | setCodeNotSupported => "Eip7702 is not supported"
  | blobGasPriceAboveMax => "blob gas price is greater than max fee per blob gas"
  | emptyBlobs => "empty blobs"
  | blobVersionNotSupported => "blob version not supported"
  | tooManyBlobs count limit =>
    "too many blobs, have " ++ toString count ++ ", max " ++ toString limit
  | emptyAuthorizationList => "empty authorization list"
  | gasLimitAboveBlock => "caller gas limit exceeds the block gas limit"
  | initCodeSizeLimit => "create initcode size limit"
  | intrinsicGasAboveLimit intrinsic gasLimit =>
    "call gas cost (" ++ toString intrinsic ++ ") exceeds the gas limit (" ++ toString gasLimit
      ++ ")"
  | floorGasAboveLimit floor gasLimit =>
    "gas floor (" ++ toString floor ++ ") exceeds the gas limit (" ++ toString gasLimit ++ ")"
  | senderHasCode => "reject transactions from senders with deployed code"
  | nonceTooHigh nonce expected =>
    "nonce " ++ toString nonce ++ " too high, expected " ++ toString expected
  | nonceTooLow nonce expected =>
    "nonce " ++ toString nonce ++ " too low, expected " ++ toString expected
  | overflowPayment => "overflow payment in transaction"
  | lackOfFunds fee balance =>
    "lack of funds (" ++ toString balance ++ ") for max fee (" ++ toString fee ++ ")"

/-- Why a transaction does not run. -/
inductive ExecutionError where
  | randomnessNotSet
  | excessBlobGasNotSet
  | base (fault : InvalidTransaction)
  | unauthorizedDeployer (caller : Address) (account : Account)
deriving DecidableEq

namespace ExecutionError

/-- The text of an error, which says first whether the block or the transaction is at fault. -/
def message : ExecutionError → String
  | randomnessNotSet => "header validation error: \x60prevrandao\x60 not set"
  | excessBlobGasNotSet => "header validation error: \x60excess_blob_gas\x60 not set"
  | base fault => "transaction validation error: " ++ fault.message
  | unauthorizedDeployer caller account =>
    "transaction validation error: Unauthorized deployer: " ++ caller.checksummed
      ++ " (account " ++ account.hex ++ ")"

/-- The number under which a pool reports the error; only the gate has one. -/
def validityCode : ExecutionError → Option Nat
  | unauthorizedDeployer _ _ => some 0
  | _ => none

/-- Whether the gate turned the transaction away. -/
def isUnauthorizedDeployer : ExecutionError → Bool
  | unauthorizedDeployer _ _ => true
  | _ => false

end ExecutionError

end CreationGate
