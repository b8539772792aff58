import CreationGate.Registry.Basic
import CreationGate.Trace

/-!
# The gate

The admission check for top-level contract creations.  Each check is one look-up in the
registry and reports one entry.
-/

namespace CreationGate

/-- The admission check over a registry. -/
structure Gate where
  registry : Registry

/-- Why an address is not accepted as a creator for the origin of a call. -/
inductive AddressOriginError where
  | notSigned
  | addressMismatch (address : Address) (expected signer : Account)
  | unauthorizedDeployer (address : Address) (account : Account)
deriving DecidableEq

/-- The text of a refusal. -/
def AddressOriginError.message : AddressOriginError → String
  | notSigned => "Origin is not signed"
  | addressMismatch address expected signer =>
    "Signer " ++ signer.hex ++ " does not match account " ++ expected.hex ++ " of address "
      ++ address.checksummed
  | unauthorizedDeployer address account =>
    "Unauthorized deployer: " ++ address.checksummed ++ " (account " ++ account.hex ++ ")"

namespace Gate

/-- Looks an account up in the registry and reports the verdict. -/
def check (gate : Gate) (identity : Account) : Traced Verdict := do
  let verdict := Verdict.ofBool (gate.registry.contains identity)
  Traced.report (.deployerChecked identity verdict)
  return verdict

/-- Looks up the account that an address stands for. -/
def checkAddress (gate : Gate) (address : Address) : Traced Verdict :=
  gate.check (Account.ofAddress address)

/-- Accepts an address for the origin of a call if its account signed the call and may create
contracts.  The registry is consulted only after the signer. -/
def ensureAddressOrigin (gate : Gate) (address : Address) (origin : Origin) :
    Traced (Except AddressOriginError Account) :=
  let account := Account.ofAddress address
  match origin.signer? with
  | none => return .error .notSigned
  | some signer =>
    if signer = account then do
      match ← gate.check account with
      | .admitted => return .ok account
      | .denied => return .error (.unauthorizedDeployer address account)
    else return .error (.addressMismatch address account signer)

end Gate

end CreationGate
