import CreationGate.Gate
import CreationGate.Governance.Event
import CreationGate.Governance.Genesis

/-!
# Deployment control

The registry under an authority.  An accepted call changes the registry and records one
event; a call from an origin without authority changes nothing.
-/

namespace CreationGate

/-- Why a governance call fails. -/
inductive DispatchError where
  | badOrigin
deriving DecidableEq

/-- The text of a refusal. -/
def DispatchError.message : DispatchError → String
  | badOrigin => "Bad origin: caller is not the governance authority"

/-- A registry, the authority over it, and the events not yet taken. -/
structure Control where
  registry : Registry
  authority : Authority
  /-- The recorded events, oldest first. -/
  events : List Event := []

namespace Control

/-- A control over a registry seeded from a genesis configuration.  Seeding records no
event. -/
def ofGenesis (registry : Registry) (authority : Authority) (genesis : Genesis) :
    Traced Control := do
  return ⟨← genesis.seed registry, authority, []⟩

/-- Reports a call from an origin without authority and leaves the control as it is. -/
private def refuse (control : Control) (origin : Origin) :
    Traced (Except DispatchError Unit × Control) := do
  Traced.report (.callRejected origin)
  return (.error .badOrigin, control)

/-- Lets an account create top-level contracts, if the origin has authority. -/
def authorize (control : Control) (origin : Origin) (deployer : Account) :
    Traced (Except DispatchError Unit × Control) :=
  if control.authority origin then do
    Traced.report (.deployerAuthorized deployer)
    return (.ok (), { control with
      registry := control.registry.insert deployer
      events := control.events ++ [.authorized deployer] })
  else control.refuse origin

/-- Takes the permission back, if the origin has authority. -/
def revoke (control : Control) (origin : Origin) (deployer : Account) :
    Traced (Except DispatchError Unit × Control) :=
  if control.authority origin then do
    Traced.report (.deployerRevoked deployer)
    return (.ok (), { control with
      registry := control.registry.remove deployer
      events := control.events ++ [.revoked deployer] })
  else control.refuse origin

/-- Whether an account may create top-level contracts. -/
def isAuthorized (control : Control) (account : Account) : Bool :=
  control.registry.contains account

/-- Whether the account of an address may create top-level contracts. -/
def isAuthorizedAddress (control : Control) (address : Address) : Bool :=
  control.isAuthorized (Account.ofAddress address)

/-- The gate over the current registry. -/
def gate (control : Control) : Gate := ⟨control.registry⟩

/-- The recorded events, and the control without them. -/
def takeEvents (control : Control) : List Event × Control :=
  (control.events, { control with events := [] })

end Control

end CreationGate
