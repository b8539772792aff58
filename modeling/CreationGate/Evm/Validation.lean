import CreationGate.Evm.Error
import CreationGate.Evm.Gas

/-!
# Validation

The checks that a transaction passes before it runs, in order: those that need only the block
and the rules, the price of the transaction itself, and those that need the sender's account.
Each check gives the fault it finds, and the first fault wins.
-/

namespace CreationGate

namespace Validation

/-- A fault of the transaction, found under a condition. -/
def faultIf (condition : Bool) (fault : InvalidTransaction) : Option ExecutionError :=
  if condition then some (.base fault) else none

/-- The fault of a block that lacks what its rules ask for. -/
def headerFault (config : Config) (block : Block) : Option ExecutionError :=
  if config.spec.includes .merge && !block.hasRandomness then some .randomnessNotSet
  else if config.spec.includes .cancun && block.excessBlobGas.isNone then
    some .excessBlobGasNotSet
  else none

/-- The fault of a transaction for another chain, or for none where its form needs one. -/
def chainFault (config : Config) (tx : Transaction) : Option ExecutionError :=
  if config.checksChainId then
    match tx.chainId with
    | some id => faultIf (id != config.chainId) .invalidChainId
    | none => faultIf tx.type.requiresChainId .missingChainId
  else none

/-- The fault of more gas than the rules let a transaction have. -/
def capFault (config : Config) (tx : Transaction) : Option ExecutionError :=
  faultIf (config.maxTransactionGas < tx.gasLimit)
    (.gasLimitAboveCap tx.gasLimit config.maxTransactionGas)

/-- The fault of a gas price below the base fee. -/
def fixedPriceFault (block : Block) (tx : Transaction) : Option ExecutionError :=
  faultIf (tx.gasPrice < block.baseFee) .gasPriceBelowBaseFee

/-- The faults of a maximum and a priority fee: the one above the other, or too little for the
base fee. -/
def dynamicPriceFault (block : Block) (tx : Transaction) : Option ExecutionError :=
  let fee := tx.priorityFee.getD 0
  faultIf (tx.gasPrice < fee) .priorityFeeAboveMax
    <|> faultIf (min tx.gasPrice (block.baseFee + fee) < block.baseFee) .gasPriceBelowBaseFee

/-- The faults of what a transaction says of its blobs. -/
def blobFault (config : Config) (block : Block) (tx : Transaction) : Option ExecutionError :=
  let count := tx.blobHashes.length
  faultIf (tx.maxBlobFee < block.blobGasPrice) .blobGasPriceAboveMax
    <|> faultIf (count == 0) .emptyBlobs
    <|> faultIf (tx.blobHashes.any fun digest => digest.bytes.head? != some 1)
      .blobVersionNotSupported
    <|> match config.blobLimit with
      | some limit => faultIf (limit < count) (.tooManyBlobs count limit)
      | none => none

/-- The faults that belong to the form of a transaction.  A form from later rules is refused
before its fees are looked at. -/
def typeFault (config : Config) (block : Block) (tx : Transaction) : Option ExecutionError :=
  match tx.type with
  | .legacy => fixedPriceFault block tx
  | .accessList => fixedPriceFault block tx
  | .dynamicFee => dynamicPriceFault block tx
  | .blob =>
    faultIf (!config.spec.includes .cancun) .blobsNotSupported
      <|> dynamicPriceFault block tx
      <|> blobFault config block tx
  | .setCode =>
    faultIf (!config.spec.includes .prague) .setCodeNotSupported
      <|> dynamicPriceFault block tx
      <|> faultIf tx.authorizations.isEmpty .emptyAuthorizationList
  | .custom _ => none

/-- The fault of sizes that the block or the rules limit. -/
def sizeFault (config : Config) (block : Block) (tx : Transaction) : Option ExecutionError :=
  faultIf (block.gasLimit < tx.gasLimit) .gasLimitAboveBlock
    <|> faultIf (config.spec.includes .shanghai && tx.isCreation
        && config.maxInitCodeSize < tx.data.length) .initCodeSizeLimit

/-- The first fault that the block and the rules find with a transaction. -/
def environmentFault (config : Config) (block : Block) (tx : Transaction) :
    Option ExecutionError :=
  headerFault config block
    <|> chainFault config tx
    <|> capFault config tx
    <|> typeFault config block tx
    <|> sizeFault config block tx

/-- The fault of gas that does not pay for the transaction itself. -/
def gasFault (spec : Spec) (tx : Transaction) : Option ExecutionError :=
  let intrinsic := Gas.intrinsic spec tx
  let floor := Gas.floor spec tx
  faultIf (tx.gasLimit < intrinsic) (.intrinsicGasAboveLimit intrinsic tx.gasLimit)
    <|> faultIf (tx.gasLimit < floor) (.floorGasAboveLimit floor tx.gasLimit)

/-- The most that the transaction can make its sender pay. -/
def maxSpending (tx : Transaction) : Nat :=
  tx.gasLimit * tx.gasPrice + tx.value
    + if tx.type = .blob then tx.blobCharge tx.maxBlobFee else 0

/-- Whether a part of what is to be paid does not fit its number. -/
def spendingOverflows (tx : Transaction) : Bool :=
  maxUInt128 < tx.gasLimit * tx.gasPrice || Word.size ≤ maxSpending tx

/-- The first fault that the sender's account finds: code of its own, another nonce, a payment
too large for its number, or too little to pay it. -/
def senderFault (config : Config) (tx : Transaction) (sender : AccountInfo) (code : Bytes) :
    Option ExecutionError :=
  faultIf (!code.isEmpty && (delegate? code).isNone) .senderHasCode
    <|> (if config.checksNonce then
        faultIf (sender.nonce < tx.nonce) (.nonceTooHigh tx.nonce sender.nonce)
          <|> faultIf (tx.nonce < sender.nonce) (.nonceTooLow tx.nonce sender.nonce)
      else none)
    <|> faultIf (spendingOverflows tx) .overflowPayment
    <|> faultIf (sender.balance < maxSpending tx) (.lackOfFunds (maxSpending tx) sender.balance)

end Validation

end CreationGate
