import CreationGate.Evm.Frame
import CreationGate.Evm.Validation

/-!
# Valid transactions

A valid transaction pays for its gas, applies its authorizations, runs its first frame, and
settles what is left of the gas.
-/

namespace CreationGate

/-- What became of a transaction that ran. -/
inductive ExecutionResult where
  /-- It went through; a creation names the new contract, if there is one. -/
  | success (finish : Finish) (gasUsed gasRefunded : Nat) (output : Bytes)
      (created : Option (Option Address))
  | revert (gasUsed : Nat) (output : Bytes)
  | halt (reason : HaltReason) (gasUsed : Nat)
deriving DecidableEq

/-- A transaction that ran. -/
structure Execution where
  result : ExecutionResult
  /-- The accounts it loaded, as it leaves them. -/
  changes : LiveAccounts
  tally : Tally

/-- The gas account of a finished transaction. -/
structure Settlement where
  used : Nat
  refunded : Nat
deriving DecidableEq

namespace Mainnet

/-- Takes the price of the gas from the sender; a call also counts the nonce up. -/
def payForGas (block : Block) (tx : Transaction) (sender : LiveAccount) : LiveAccount :=
  let price := tx.gasLimit * tx.effectiveGasPrice block.baseFee
    + if tx.type = .blob then tx.blobCharge block.blobGasPrice else 0
  let nonce := if tx.isCreation then sender.info.nonce
    else min (sender.info.nonce + 1) maxUInt64
  { sender with
    touched := true
    info := { sender.info with balance := sender.info.balance - price, nonce := nonce } }

/-- Applies one authorization: the authority's code becomes a delegation, or empty for the
zero address.  Gives one back if the authority existed before. -/
def authorize (chainId : Nat) (state : Nat × Journal) (item : Authorization) : Nat × Journal :=
  let (existing, journal) := state
  if item.chainId ≠ 0 ∧ item.chainId ≠ chainId then state
  else if item.nonce = maxUInt64 then state
  else
    let (live, code, journal) := journal.loadCode item.authority
    if !code.isEmpty && (delegate? code).isNone then (existing, journal)
    else if item.nonce ≠ live.info.nonce then (existing, journal)
    else
      let fresh := live.info.isEmpty && live.missing && !live.touched
      let code := if item.address = .zero then [] else delegation item.address
      let info := live.info.withCode code
      let live := { live with
        touched := true
        info := { info with nonce := min (info.nonce + 1) maxUInt64 } }
      (if fresh then existing else existing + 1, journal.put item.authority live)

/-- Applies the authorizations of a transaction that may carry them. -/
def applyAuthorizations (config : Config) (tx : Transaction) (journal : Journal) :
    Nat × Journal :=
  if tx.type = .setCode then
    tx.authorizations.foldl (authorize config.chainId) (0, journal)
  else (0, journal)

/-- Runs the frame that a transaction is made for, with the gas left after its own price. -/
def firstFrame (config : Config) (tx : Transaction) (journal : Journal) : FrameResult × Host :=
  let gas := tx.gasLimit - Gas.intrinsic config.spec tx
  match tx.target with
  | none =>
    Frame.create config Frame.maxDepth ⟨tx.caller, tx.value, tx.data, none, gas⟩ ⟨journal, {}⟩
  | some target => Frame.call config tx.caller target tx.value gas ⟨journal, {}⟩

/-- Settles the gas: what is left goes back, at most a fifth of what was spent is refunded,
and no less than the floor is used. -/
def settle (spec : Spec) (tx : Transaction) (authorities : Nat) (result : FrameResult) :
    Settlement :=
  let spent := tx.gasLimit - if result.finish.keepsGas then result.gas else 0
  let counter : Int := (if result.finish.isSuccess then result.refund else 0) + 12500 * authorities
  -- A counter below zero is read as the large unsigned number with the same bits.
  let refunded := min (counter % UInt64.size).toNat (spent / 5)
  let floor := Gas.floor spec tx
  if spent - refunded < floor then ⟨floor, 0⟩ else ⟨spent - refunded, refunded⟩

/-- Gives the sender back what was not used and the beneficiary what it earned. -/
def distribute (block : Block) (tx : Transaction) (settlement : Settlement)
    (journal : Journal) : Journal :=
  let price := tx.effectiveGasPrice block.baseFee
  let journal := journal.credit tx.caller (price * (tx.gasLimit - settlement.used))
  journal.credit block.beneficiary ((price - block.baseFee) * settlement.used)

/-- The result that a first frame and its settlement make. -/
def resultOf (tx : Transaction) (settlement : Settlement) (result : FrameResult) :
    ExecutionResult :=
  match result.finish with
  | .reverted => .revert settlement.used result.output
  | .halted reason => .halt reason settlement.used
  | finish =>
    .success finish settlement.used settlement.refunded result.output
      (if tx.isCreation then some result.address else none)

/-- All that a valid transaction does: it pays for its gas, announces its addresses, applies its
authorizations, runs its first frame, and settles. -/
def perform (config : Config) (block : Block) (tx : Transaction) (sender : LiveAccount)
    (journal : Journal) : Execution × World :=
  let journal := journal.put tx.caller (payForGas block tx sender)
  let journal := tx.announced.foldl Journal.announce journal
  let (authorities, journal) := applyAuthorizations config tx journal
  let (result, host) := firstFrame config tx journal
  let settlement := settle config.spec tx authorities result
  let journal := distribute block tx settlement host.journal
  (⟨resultOf tx settlement result, journal.accounts, host.tally⟩, journal.world)

end Mainnet

end CreationGate
