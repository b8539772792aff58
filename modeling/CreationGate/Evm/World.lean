import CreationGate.Evm.Account

/-!
# The world

The accounts between transactions, over an empty chain.  Reading through `basic`, `codeOf`
and `storage` keeps a copy of what was read, absence included, so each returns the world
along with the answer.  `info?`, `nonce`, `code?` and `slot?` look at the copies alone.
-/

namespace CreationGate

/-- How much is known about an account. -/
inductive AccountMark where
  /-- Slots without a copy are read from the chain. -/
  | loaded
  /-- As before; a transaction has written the account. -/
  | touched
  /-- The storage was emptied: slots without a copy are zero. -/
  | cleared
  /-- There is no such account. -/
  | absent
deriving DecidableEq

/-- An account as the world holds it. -/
structure HeldAccount where
  /-- Balance, nonce and code. -/
  info : AccountInfo := {}
  /-- How much is known. -/
  mark : AccountMark := .loaded
  /-- The known slots. -/
  slots : SortedMap Word Word := ∅
deriving DecidableEq

namespace HeldAccount

/-- A known absence. -/
def missing : HeldAccount := { mark := .absent }

/-- Balance, nonce and code, unless the account is absent. -/
def info? (held : HeldAccount) : Option AccountInfo :=
  if held.mark = .absent then none else some held.info

end HeldAccount

/-- Accounts and code. -/
structure World where
  /-- The known accounts. -/
  accounts : SortedMap Address HeldAccount
  /-- Code by its digest. -/
  codes : SortedMap Digest Bytes
  /-- The digest that accounts without code carry stands for no code. -/
  emptyCode : codes.get? emptyCodeHash = some []
deriving DecidableEq

namespace World

/-- The world of an empty chain. -/
def empty : World where
  accounts := ∅
  codes := SortedMap.ofList [(emptyCodeHash, []), (.repeated 32 0, [])]
  emptyCode := by
    simp only [SortedMap.ofList, List.foldl_cons, List.foldl_nil, SortedMap.get?_insert]
    split <;> rfl

/-! ## Reading -/

/-- The held account at an address, and the world that holds it. -/
def hold (world : World) (address : Address) : HeldAccount × World :=
  match world.accounts.get? address with
  | some held => (held, world)
  | none => (.missing, { world with accounts := world.accounts.insert address .missing })

/-- Balance, nonce and code of an address, if there is an account. -/
def basic (world : World) (address : Address) : Option AccountInfo × World :=
  let (held, world) := world.hold address
  (held.info?, world)

/-- The code with a digest; code never stored is empty. -/
def codeOf (world : World) (digest : Digest) : Bytes × World :=
  match world.codes.get? digest with
  | some code => (code, world)
  | none =>
    ([], { world with
      codes := world.codes.insert digest []
      emptyCode := by
        rw [SortedMap.get?_insert]
        split
        · rfl
        · exact world.emptyCode })

/-- The value of a slot.  A slot of an account that is neither emptied nor absent is copied
when it is first read. -/
def storage (world : World) (address : Address) (slot : Word) : Word × World :=
  match world.accounts.get? address with
  | none => (0, { world with accounts := world.accounts.insert address .missing })
  | some held =>
    match held.slots.get? slot with
    | some value => (value, world)
    | none =>
      match held.mark with
      | .cleared => (0, world)
      | .absent => (0, world)
      | _ =>
        (0, { world with
          accounts := world.accounts.insert address
            { held with slots := held.slots.insert slot 0 } })

/-! ## Looking at the copies -/

/-- The copy of an address's balance, nonce and code. -/
def info? (world : World) (address : Address) : Option AccountInfo :=
  (world.accounts.get? address).map (·.info)

/-- The nonce of an address. -/
def nonce (world : World) (address : Address) : Nat :=
  match world.info? address with
  | some info => info.nonce
  | none => 0

/-- The balance of an address. -/
def balance (world : World) (address : Address) : Nat :=
  match world.info? address with
  | some info => info.balance
  | none => 0

/-- The code of an address, if it has any. -/
def code? (world : World) (address : Address) : Option Bytes := do
  let info ← world.info? address
  let code ← match info.code with
    | some code => some code
    | none => world.codes.get? info.codeHash
  if code.isEmpty then none else some code

/-- The copy of a slot. -/
def slot? (world : World) (address : Address) (slot : Word) : Option Word := do
  (← world.accounts.get? address).slots.get? slot

/-! ## Writing -/

/-- Stores code under a digest, unless there is code under it. -/
def addCode (world : World) (digest : Digest) (code : Bytes) : World :=
  if h : world.codes.contains digest then world
  else { world with
    codes := world.codes.insert digest code
    emptyCode := by
      have hne : emptyCodeHash ≠ digest := by
        rintro rfl
        exact h (by rw [SortedMap.contains, world.emptyCode]; rfl)
      rw [SortedMap.get?_insert, if_neg hne]
      exact world.emptyCode }

/-- Stores the code of an account under its digest.  Code that carries the digest of the
empty string gets its own, and a digest of zeros becomes that of the empty string. -/
def storeCode (world : World) (info : AccountInfo) : AccountInfo × World :=
  match info.code with
  | some (b :: rest) =>
    let code := b :: rest
    let digest := if info.codeHash = emptyCodeHash then keccak256 code else info.codeHash
    let digest' := if digest = .repeated 32 0 then emptyCodeHash else digest
    ({ info with codeHash := digest' }, world.addCode digest code)
  | _ =>
    let digest := if info.codeHash = .repeated 32 0 then emptyCodeHash else info.codeHash
    ({ info with codeHash := digest }, world)

/-- Sets the balance of an address, which makes it an account. -/
def setBalance (world : World) (address : Address) (balance : Nat) : World :=
  let (held, world) := world.hold address
  { world with
    accounts := world.accounts.insert address
      { held with info := { held.info with balance := balance }, mark := .loaded } }

/-- Puts an account with given balance, nonce, code and slots in place. -/
def putAccount (world : World) (address : Address) (info : AccountInfo)
    (slots : List (Word × Word)) : World :=
  let (info, world) := world.storeCode info
  let held := (world.accounts.get? address).getD {}
  let mark := if held.mark = .absent then .loaded else held.mark
  { world with
    accounts := world.accounts.insert address
      { info := info, mark := mark, slots := held.slots.extend (.ofList slots) } }

/-- Writes one account of a finished transaction back. -/
def commitAccount (world : World) (address : Address) (live : LiveAccount) : World :=
  if !live.touched then world
  else if live.destroyed then
    { world with accounts := world.accounts.insert address .missing }
  else
    let (info, world) := world.storeCode live.info
    let held := (world.accounts.get? address).getD {}
    let mark :=
      if live.created then .cleared
      else if held.mark = .cleared then .cleared
      else .touched
    let slots := if live.created then ∅ else held.slots
    { world with
      accounts := world.accounts.insert address
        { info := info, mark := mark
          slots := slots.extend (live.slots.mapValues fun _ slot => slot.present) } }

/-- Writes the accounts of a finished transaction back. -/
def commit (world : World) (changes : LiveAccounts) : World :=
  changes.entries.foldl (fun world e => world.commitAccount e.1 e.2) world

end World

end CreationGate
