import CreationGate.Evm.Diff
import CreationGate.Evm.Executor
import CreationGate.Governance.Control

/-!
# Sessions

A control, a world, and the settings that transactions run under, taken through a list of
steps.  Each step gives one answer, and what it reports is traced.
-/

namespace CreationGate

/-- The state of a session. -/
structure Session where
  /-- The registry, its authority and the recorded events. -/
  control : Control
  world : World := .empty
  config : Config := {}
  block : Block := {}

/-- How a transaction is run. -/
inductive RunMode where
  /-- Without writing its changes. -/
  | dry
  | commit
  /-- Without writing its changes, counting what happens. -/
  | inspect
deriving DecidableEq

/-- One step of a session. -/
inductive Step where
  | authorize (origin : Origin) (account : Account)
  | revoke (origin : Origin) (account : Account)
  | isAuthorized (account : Account)
  | isAuthorizedAddress (address : Address)
  | check (account : Account)
  | checkAddress (address : Address)
  | ensureAddressOrigin (address : Address) (origin : Origin)
  | events
  | takeEvents
  | members
  | store
  | gate
  /-- Puts a new control over the registry, perhaps seeding it once more. -/
  | rebuild (authority : Authority) (genesis : Option Genesis)
  | setBalance (address : Address) (balance : Nat)
  | setConfig (config : Config)
  | setBlock (block : Block)
  | account (address : Address) (slots : List Word)
  /-- Runs a transaction; without a nonce of its own it takes the sender's current one. -/
  | run (mode : RunMode) (tx : Transaction) (nonce : Option Nat)

/-- The answer to one step. -/
inductive Answer where
  /-- The outcome of a governance call and the number of recorded events after it. -/
  | dispatched (outcome : Except DispatchError Unit) (events : Nat)
  | authorized (authorized : Bool)
  | verdict (verdict : Verdict)
  | origin (outcome : Except AddressOriginError Account)
  | events (events : List Event)
  | members (members : List Account)
  | store (store : ByteStore)
  | size (size : Nat)
  | gate (text : String)
  | rebuilt (events : Nat) (members : List Account)
  | done
  | account (balance nonce : Nat) (code : Option Bytes) (slots : List (Word × Word))
  /-- A transaction; what it changes is given unless it was committed. -/
  | ran (outcome : Except ExecutionError (ExecutionResult × Option (List AccountDiff)))
      (tally : Option Tally)

namespace Session

/-- The executor under the current registry and settings. -/
def executor (session : Session) : Executor :=
  ⟨session.control.gate, session.config, session.block⟩

/-- The answer to a governance call, with the control that it leaves. -/
def dispatched (session : Session)
    (call : Traced (Except DispatchError Unit × Control)) : Traced (Answer × Session) := do
  let (outcome, control) ← call
  return (.dispatched outcome control.events.length, { session with control := control })

/-- The transaction at a nonce, or at the one that shows for its sender. -/
def withNonce (session : Session) (tx : Transaction) (nonce : Option Nat) : Transaction :=
  { tx with nonce := nonce.getD (session.world.nonce tx.caller) }

/-- The outcome of a run, with what it changes in a world. -/
def outcome (world : World) (outcome : Except ExecutionError Execution) :
    Except ExecutionError (ExecutionResult × Option (List AccountDiff)) :=
  match outcome with
  | .error e => .error e
  | .ok execution => .ok (execution.result, some (world.diff execution.changes))

/-- Runs a transaction in one of the three ways. -/
def run (session : Session) (mode : RunMode) (tx : Transaction) :
    Traced (Answer × Session) := do
  match mode with
  | .dry =>
    let (result, world) ← session.executor.transact session.world tx
    return (.ran (outcome world result) none, { session with world := world })
  | .inspect =>
    let ((result, tally), world) ← session.executor.inspect session.world tx
    return (.ran (outcome world result) (some tally), { session with world := world })
  | .commit =>
    let (result, world) ← session.executor.transactCommit session.world tx
    let result := match result with
      | .error e => .error e
      | .ok execution => .ok (execution.result, none)
    return (.ran result none, { session with world := world })

/-- What a look at the backing store of a registry shows. -/
def stored (registry : Registry) : Answer :=
  match registry with
  | .memory members => .size members.size
  | .stored store => .store store

/-- Takes one step. -/
def step (session : Session) : Step → Traced (Answer × Session)
  | .authorize origin account => session.dispatched (session.control.authorize origin account)
  | .revoke origin account => session.dispatched (session.control.revoke origin account)
  | .isAuthorized account => return (.authorized (session.control.isAuthorized account), session)
  | .isAuthorizedAddress address =>
    return (.authorized (session.control.isAuthorizedAddress address), session)
  | .check account => return (.verdict (← session.control.gate.check account), session)
  | .checkAddress address =>
    return (.verdict (← session.control.gate.checkAddress address), session)
  | .ensureAddressOrigin address origin =>
    return (.origin (← session.control.gate.ensureAddressOrigin address origin), session)
  | .events => return (.events session.control.events, session)
  | .takeEvents =>
    let (events, control) := session.control.takeEvents
    return (.events events, { session with control := control })
  | .members => return (.members session.control.registry.members, session)
  | .store => return (stored session.control.registry, session)
  | .gate => return (.gate "OriginGate \x7b .. \x7d", session)
  | .rebuild authority genesis => do
    let registry := session.control.registry
    let control ← match genesis with
      | some genesis => Control.ofGenesis registry authority genesis
      | none => pure ⟨registry, authority, []⟩
    return (.rebuilt control.events.length control.registry.members,
      { session with control := control })
  | .setBalance address balance =>
    return (.done, { session with world := session.world.setBalance address balance })
  | .setConfig config => return (.done, { session with config := config })
  | .setBlock block => return (.done, { session with block := block })
  | .account address slots =>
    let world := session.world
    return (.account (world.balance address) (world.nonce address) (world.code? address)
      (slots.map fun slot => (slot, (world.slot? address slot).getD 0)), session)
  | .run mode tx nonce => session.run mode (session.withNonce tx nonce)

/-- Takes a list of steps; each answer comes with what its step reported. -/
def steps (session : Session) : List Step → List (Traced Answer) × Session
  | [] => ([], session)
  | step :: rest =>
    let taken := session.step step
    let (answers, last) := taken.value.2.steps rest
    (⟨taken.value.1, taken.log⟩ :: answers, last)

end Session

end CreationGate
