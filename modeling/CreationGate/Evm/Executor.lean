import CreationGate.Evm.Handler

/-!
# Gated execution

An executor runs transactions through the deployment handler of its gate, under its rules and
its block: without writing, writing what a run changes, or counting what happens.
-/

namespace CreationGate

/-- A gate together with the rules and the block that transactions run under. -/
structure Executor where
  /-- The admission check. -/
  gate : Gate
  /-- The rules. -/
  config : Config := {}
  /-- The block. -/
  block : Block := {}

namespace Executor

/-- Runs a transaction without writing its changes to the world. -/
def transact (executor : Executor) (world : World) (tx : Transaction) :
    Traced (Except ExecutionError Execution × World) :=
  (Handler.deployment executor.gate).run executor.config executor.block world tx

/-- Runs a transaction and writes its changes to the world. -/
def transactCommit (executor : Executor) (world : World) (tx : Transaction) :
    Traced (Except ExecutionError Execution × World) := do
  match ← executor.transact world tx with
  | (.error e, world) => return (.error e, world)
  | (.ok execution, world) => return (.ok execution, world.commit execution.changes)

/-- Runs a transaction without writing its changes, and counts what happens. -/
def inspect (executor : Executor) (world : World) (tx : Transaction) :
    Traced ((Except ExecutionError Execution × Tally) × World) :=
  (Handler.deployment executor.gate).inspectRun executor.config executor.block world tx

/-- Counting changes nothing about a run. -/
theorem inspect_eq (executor : Executor) (world : World) (tx : Transaction) :
    executor.inspect world tx = do
      let (outcome, world) ← executor.transact world tx
      return ((outcome, Handler.tally outcome), world) :=
  rfl

end Executor

/-- The transaction in which a sender creates a contract from initialization code, at the nonce
that the sender has in a world. -/
def World.creationBy (world : World) (caller : Address) (initCode : Bytes) : Transaction :=
  { caller := caller, data := initCode, nonce := world.nonce caller }

/-- The transaction in which a sender calls an address, at the nonce that the sender has in a
world. -/
def World.callBy (world : World) (caller target : Address) (data : Bytes) : Transaction :=
  { caller := caller, target := some target, data := data, nonce := world.nonce caller }

end CreationGate
