import CreationGate.Identity

/-!
# Origins and the governance authority

A governance call comes from the chain itself, from an account that signed it, or from
nobody.  An authority is a predicate on origins.
-/

namespace CreationGate

/-- Where a call comes from. -/
inductive Origin where
  /-- The chain itself. -/
  | root
  /-- An account that signed the call. -/
  | signed (signer : Account)
  /-- Nobody. -/
  | unsigned
deriving DecidableEq

namespace Origin

/-- The account that signed, if one did. -/
def signer? : Origin → Option Account
  | signed signer => some signer
  | _ => none

/-- Whether the call comes from the chain itself. -/
def isRoot : Origin → Bool
  | root => true
  | _ => false

end Origin

/-- A predicate that says which origins may change the registry. -/
abbrev Authority := Origin → Bool

namespace Authority

/-- Only the chain itself. -/
def root : Authority := Origin.isRoot

/-- The chain itself and one account. -/
def single (key : Account) : Authority
  | .root => true
  | .signed signer => signer == key
  | .unsigned => false

/-- The accounts of a list, and not the chain itself. -/
def council (members : List Account) : Authority := fun origin =>
  match origin.signer? with
  | some signer => members.contains signer
  | none => false

end Authority

end CreationGate
