import CreationGate.Identity

/-!
# Deployment events

One event per accepted governance call.
-/

namespace CreationGate

/-- An accepted change of the registry. -/
inductive Event where
  | authorized (deployer : Account)
  | revoked (deployer : Account)
deriving DecidableEq

/-- The account that an event is about. -/
def Event.deployer : Event → Account
  | authorized deployer => deployer
  | revoked deployer => deployer

end CreationGate
