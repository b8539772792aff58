import CreationGate.Identity

/-!
# Keys of the deployer registry in a shared byte store

The key of an account is a marker, the short digest of the account, and the account itself.
`Key.account? k = some a` holds exactly when `k = Key.ofAccount a`.
-/

namespace CreationGate

namespace Key

/-- What every member key starts with. -/
def marker : Bytes := Bytes.ofAscii "EvmDeploymentControl:AuthorizedDeployers:"

/-- The length of a member key: the marker, a 16-byte digest and a 32-byte account. -/
def length : Nat := marker.length + 16 + 32

/-- The key under which an account is a member. -/
def ofAccount (account : Account) : Bytes :=
  marker ++ (blake2b128 account.bytes).bytes ++ account.bytes

/-- The account of a member key; `none` for a key of another length, start or digest. -/
def account? (key : Bytes) : Option Account :=
  if key.length != length || !marker.isPrefixOf key then none
  else
    let rest := key.drop marker.length
    let digest := rest.take 16
    let account := rest.drop 16
    if digest = (blake2b128 account).bytes then FixedBytes.ofBytes? 32 account else none

/-- Reads a member key by cuts that could fall behind its end.  They never do, and the answer
is that of `account?`. -/
def decode (key : Bytes) : Except Bytes.CutError (Option Account) := do
  if key.length != length || !marker.isPrefixOf key then return none
  let rest ← key.suffixFrom marker.length
  let (digest, account) ← rest.cutAt 16
  if digest = (blake2b128 account).bytes then return FixedBytes.ofBytes? 32 account
  return none

end Key

end CreationGate
