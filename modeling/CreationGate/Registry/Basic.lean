import CreationGate.Registry.ByteStore
import CreationGate.Registry.Key

/-!
# The deployer registry

The registry is the set of accounts that may create top-level contracts.  It is held either
as a set or as the member keys of a byte store that other data may share.  Inserting and
removing are idempotent and cannot fail.
-/

namespace CreationGate

/-- A set of accounts. -/
abbrev AccountSet := SortedMap Account Unit

/-- The set of the accounts in a list. -/
def AccountSet.ofList (accounts : List Account) : AccountSet :=
  accounts.foldl (fun set account => set.insert account ()) ∅

/-- The accounts allowed to create top-level contracts. -/
inductive Registry where
  /-- The members as a set. -/
  | memory (members : AccountSet)
  /-- The members as keys of a byte store. -/
  | stored (store : ByteStore)
deriving DecidableEq

namespace Registry

/-- Whether an account is a member. -/
def contains (account : Account) : Registry → Bool
  | memory members => members.contains account
  | stored store => store.contains (Key.ofAccount account)

/-- The registry with an account added; in a store, its key gets the empty value. -/
def insert (account : Account) : Registry → Registry
  | memory members => memory (members.insert account ())
  | stored store => stored (store.insert (Key.ofAccount account) [])

/-- The registry with an account removed. -/
def remove (account : Account) : Registry → Registry
  | memory members => memory (members.erase account)
  | stored store => stored (store.erase (Key.ofAccount account))

/-- The members, ascending.  A store keeps them in the order of their digests, so they are
sorted again. -/
def members : Registry → List Account
  | memory members => members.keys
  | stored store =>
    ((store.keysFrom Key.marker).filterMap Key.account?).mergeSort fun a b =>
      (compare a b).isLE

/-- The registry with a list of accounts added. -/
def insertAll (accounts : List Account) (registry : Registry) : Registry :=
  accounts.foldl (fun registry account => registry.insert account) registry

/-! ## Raw access to a shared store -/

/-- Changes the byte store of a stored registry; a set has none to change. -/
def mapStore (f : ByteStore → ByteStore) : Registry → Registry
  | memory members => memory members
  | stored store => stored (f store)

/-- The byte store behind the registry, if it has one. -/
def store? : Registry → Option ByteStore
  | memory _ => none
  | stored store => some store

end Registry

end CreationGate
