import CreationGate.Gate
import CreationGate.Evm.Mainnet

/-!
# Handlers

The stages of a transaction as hooks, and the run that goes through them.  The handler of
gated execution is the one of mainnet with a single hook of its own: `validate` asks the gate
between the checks of the environment and the price of the transaction, so that a denied
creation never reaches its sender's account.  Contracts that code creates while it runs are
frames, not transactions, and no hook sees them.
-/

namespace CreationGate

/-- The stages of a transaction, each a hook. -/
structure Handler where
  /-- The checks that need only the block and the rules. -/
  validateEnvironment : Config → Block → Transaction → Option ExecutionError
  /-- The check that the gas pays for the transaction itself. -/
  validateGas : Config → Transaction → Option ExecutionError
  /-- The checks against the sender's account and its code. -/
  validateSender : Config → Transaction → AccountInfo → Bytes → Option ExecutionError
  /-- All that a valid transaction does, from its payment for gas to the settlement. -/
  perform : Config → Block → Transaction → LiveAccount → Journal → Execution × World
  /-- All the checks that come before an account is loaded. -/
  validate : Config → Block → Transaction → Traced (Option ExecutionError) :=
    fun config block tx => return validateEnvironment config block tx <|> validateGas config tx

/-- Asks the gate about the sender of a creation. -/
def Gate.enforce (gate : Gate) (tx : Transaction) : Traced (Option ExecutionError) :=
  if tx.isCreation then do
    let account := Account.ofAddress tx.caller
    match ← gate.check account with
    | .admitted => return none
    | .denied =>
      Traced.report (.creationRejected tx.caller account)
      return some (.unauthorizedDeployer tx.caller account)
  else return none

namespace Handler

/-- The handler that asks no gate. -/
def mainnet : Handler where
  validateEnvironment := Validation.environmentFault
  validateGas config tx := Validation.gasFault config.spec tx
  validateSender := Validation.senderFault
  perform := Mainnet.perform

/-- The mainnet handler, asking a gate before the gas is looked at. -/
def deployment (gate : Gate) : Handler :=
  { mainnet with
    validate := fun config block tx => do
      match mainnet.validateEnvironment config block tx with
      | some e => return some e
      | none =>
        match ← gate.enforce tx with
        | some e => return some e
        | none => return mainnet.validateGas config tx }

/-- Runs a transaction past `validate`: it fails for its sender, who has been loaded by then,
or is performed. -/
def proceed (handler : Handler) (config : Config) (block : Block) (world : World)
    (tx : Transaction) : Except ExecutionError Execution × World :=
  let (sender, code, journal) := Journal.loadCode ⟨∅, world⟩ tx.caller
  match handler.validateSender config tx sender.info code with
  | some e => (.error e, journal.world)
  | none =>
    let (execution, world) := handler.perform config block tx sender journal
    (.ok execution, world)

/-- Runs a transaction without writing its changes to the world.  Any fault leaves the world
as it was, apart from copies of what was read. -/
def run (handler : Handler) (config : Config) (block : Block) (world : World)
    (tx : Transaction) : Traced (Except ExecutionError Execution × World) := do
  match ← handler.validate config block tx with
  | some e => return (.error e, world)
  | none => return handler.proceed config block world tx

/-- The counts of a run; a transaction that does not run counts nothing. -/
def tally : Except ExecutionError Execution → Tally
  | .ok execution => execution.tally
  | .error _ => {}

/-- Runs a transaction as `run` does, and gives what was counted on the way. -/
def inspectRun (handler : Handler) (config : Config) (block : Block) (world : World)
    (tx : Transaction) : Traced ((Except ExecutionError Execution × Tally) × World) := do
  let (outcome, world) ← handler.run config block world tx
  return ((outcome, tally outcome), world)

/-! ## Runs through a handler -/

variable {handler other : Handler} {config : Config} {block : Block} {world : World}
  {tx : Transaction}

theorem run_of_invalid {e : ExecutionError}
    (h : (handler.validate config block tx).value = some e) :
    (handler.run config block world tx).value = (.error e, world) := by
  unfold run
  rw [Traced.value_bind, h]
  rfl

theorem run_of_valid (h : (handler.validate config block tx).value = none) :
    (handler.run config block world tx).value = handler.proceed config block world tx := by
  unfold run
  rw [Traced.value_bind, h]
  rfl

/-- A run reports what its validation reports. -/
theorem log_run :
    (handler.run config block world tx).log = (handler.validate config block tx).log := by
  unfold run
  rw [Traced.log_bind]
  cases (handler.validate config block tx).value with
  | some e => simp
  | none => simp

/-- Handlers that differ in `validate` alone run alike what they validate alike. -/
theorem run_congr (hproceed : handler.proceed = other.proceed)
    (hvalidate : (handler.validate config block tx).value
      = (other.validate config block tx).value) :
    (handler.run config block world tx).value = (other.run config block world tx).value := by
  cases h : (other.validate config block tx).value with
  | some e => rw [run_of_invalid h, run_of_invalid (hvalidate.trans h)]
  | none => rw [run_of_valid h, run_of_valid (hvalidate.trans h), hproceed]

end Handler

/-- Runs a transaction without any gate. -/
def Mainnet.transact (config : Config) (block : Block) (world : World) (tx : Transaction) :
    Except ExecutionError Execution × World :=
  (Handler.mainnet.run config block world tx).value

end CreationGate
