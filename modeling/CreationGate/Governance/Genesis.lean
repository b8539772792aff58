import CreationGate.Registry.Basic
import CreationGate.Trace

/-!
# Genesis configuration

The deployers that a chain starts with, listed as accounts or as addresses.
-/

namespace CreationGate

/-- The initially authorized deployers. -/
structure Genesis where
  deployers : List Account
  addresses : List Address
deriving DecidableEq

namespace Genesis

/-- The listed accounts, then the accounts of the listed addresses. -/
def accounts (genesis : Genesis) : List Account :=
  genesis.deployers ++ genesis.addresses.map Account.ofAddress

/-- Puts the listed accounts into a registry, and reports how many were listed. -/
def seed (genesis : Genesis) (registry : Registry) : Traced Registry := do
  Traced.report (.registrySeeded genesis.deployers.length genesis.addresses.length)
  return registry.insertAll genesis.accounts

end Genesis

end CreationGate
