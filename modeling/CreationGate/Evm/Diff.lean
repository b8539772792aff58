import CreationGate.Evm.World

/-!
# Differences

What a finished transaction would change in the world.
-/

namespace CreationGate

/-- What changes at one account. -/
structure AccountDiff where
  address : Address
  balance : Nat
  nonce : Nat
  /-- The slots that change, ascending, with their values afterwards. -/
  slots : List (Word × Word)
  /-- Its code afterwards, if that changes. -/
  code : Option Bytes
deriving DecidableEq

namespace World

/-- What an account holds after a transaction, if it differs from the world.  A slot differs if
it was changed since it was read. -/
def accountDiff? (world : World) (address : Address) (live : LiveAccount) :
    Option AccountDiff :=
  let codeBefore : Bytes := (world.code? address).getD []
  let codeAfter : Bytes := match live.info.code with
    | some code => code
    | none => (world.codes.get? live.info.codeHash).getD []
  let slots : List (Word × Word) := live.slots.entries.filterMap fun e =>
    if e.2.present = e.2.initial then none else some (e.1, e.2.present)
  if live.info.balance = world.balance address ∧ live.info.nonce = world.nonce address
      ∧ codeBefore = codeAfter ∧ slots = [] then none
  else some ⟨address, live.info.balance, live.info.nonce, slots,
    if codeBefore = codeAfter then none else some codeAfter⟩

/-- The accounts that a transaction leaves different from the world, ascending. -/
def diff (world : World) (changes : LiveAccounts) : List AccountDiff :=
  changes.entries.filterMap fun e => world.accountDiff? e.1 e.2

end World

end CreationGate
