import CreationGate.Evm.Machine
import CreationGate.Evm.World

/-!
# The journal

The accounts as a running transaction sees them: what it has loaded and changed, in front of
the world.  To undo the changes of a frame its accounts are put back as they were; what was
read from the world stays read.
-/

namespace CreationGate

/-- Loaded accounts in front of a world. -/
structure Journal where
  accounts : LiveAccounts := ∅
  world : World

namespace Journal

/-- The account at an address, and the journal that has loaded it. -/
def load (journal : Journal) (address : Address) : LiveAccount × Journal :=
  match journal.accounts.get? address with
  | some live => (live, journal)
  | none =>
    let (info?, world) := journal.world.basic address
    let live : LiveAccount := match info? with
      | some info => { info := info }
      | none => { missing := true }
    (live, { accounts := journal.accounts.insert address live, world := world })

/-- Puts an account in place of what was loaded at an address. -/
def put (journal : Journal) (address : Address) (live : LiveAccount) : Journal :=
  { journal with accounts := journal.accounts.insert address live }

/-- Changes the account at an address, which is loaded for it. -/
def update (journal : Journal) (address : Address) (f : LiveAccount → LiveAccount) : Journal :=
  let (live, journal) := journal.load address
  journal.put address (f live)

/-- The account at an address with its code.  Code that is not at hand is looked up by its digest
and kept at hand from then on. -/
def loadCode (journal : Journal) (address : Address) : LiveAccount × Bytes × Journal :=
  let (live, journal) := journal.load address
  match live.info.code with
  | some code => (live, code, journal)
  | none =>
    if live.info.codeHash = emptyCodeHash then (live, [], journal)
    else
      let (code, world) := journal.world.codeOf live.info.codeHash
      let live := { live with info := { live.info with code := some code } }
      (live, code, { journal with world := world }.put address live)

/-- The slot of an account, whether it was warm, and the journal in which it is.  A slot of a
created account that was not announced is zero. -/
def loadSlot (journal : Journal) (address : Address) (slot : Word) : Slot × Bool × Journal :=
  let (live, journal) := journal.load address
  let (s, warm, world) := match live.slots.get? slot with
    | some s => (s, s.warm, journal.world)
    | none =>
      let (value, world) :=
        if live.created then (0, journal.world) else journal.world.storage address slot
      ((⟨value, value, true⟩ : Slot), false, world)
  (s, warm,
    { journal with world := world }.put address
      { live with slots := live.slots.insert slot { s with warm := true } })

/-- Writes a slot that was loaded before. -/
def writeSlot (journal : Journal) (address : Address) (slot value : Word) : Journal :=
  { journal with
    accounts := journal.accounts.modify address fun live =>
      { live with slots := live.slots.modify slot fun s => { s with present := value } } }

/-- Loads an address and its slots ahead of their use, which makes them warm. -/
def announce (journal : Journal) (item : Address × List Word) : Journal :=
  let (_, journal) := journal.load item.1
  item.2.foldl (fun journal slot => (journal.loadSlot item.1 slot).2.2) journal

/-- Adds to a balance, which stops growing at the largest word. -/
def credit (journal : Journal) (address : Address) (amount : Nat) : Journal :=
  journal.update address fun live =>
    { live with
      touched := true
      info := { live.info with balance := min (live.info.balance + amount) (Word.size - 1) } }

/-- Keeps what an undone frame read of an account's slots. -/
def keepRead (journal : Journal) (address : Address) (undone : LiveAccount) : Journal :=
  if undone.slots.isEmpty then journal
  else journal.update address fun live => live.keepRead undone

/-- Puts back the accounts of an earlier journal.  A slot read since then stays read, with the
value it was read with, which for an account created since then is zero. -/
def restore (journal earlier : Journal) : Journal :=
  journal.accounts.entries.foldl (fun kept e => kept.keepRead e.1 e.2)
    { journal with accounts := earlier.accounts }

/-- Has an account written back, even if nothing else about it changes. -/
def touch (journal : Journal) (address : Address) : Journal :=
  journal.update address fun live => { live with touched := true }

/-- Moves value from a caller to the account it calls, which is touched even by nothing.  A
recipient that cannot hold the sum leaves the caller without the value. -/
def transfer (journal : Journal) (caller target : Address) (value : Nat) :
    Option HaltReason × Journal :=
  let (sender, journal) := journal.load caller
  let (_, journal) := journal.load target
  if sender.info.balance < value then (some .outOfFunds, journal)
  else if caller = target then (none, journal)
  else if value = 0 then (none, journal.touch target)
  else
    let paid := journal.update caller fun live =>
      { live with
        touched := true
        info := { live.info with balance := live.info.balance - value } }
    let (recipient, _) := paid.load target
    if recipient.info.balance + value < Word.size then (none, paid.credit target value)
    else (some .overflowPayment, paid)

/-! ## Creations -/

/-- What a creation asks for. -/
structure CreateRequest where
  creator : Address
  value : Nat
  initCode : Bytes
  /-- The salt of the address, if it is not to depend on the nonce. -/
  salt : Option Word
  gas : Nat

/-- Where the contract comes to be: the address depends on the nonce, or on the salt and the
code. -/
def CreateRequest.address (request : CreateRequest) (nonce : Nat) : Address :=
  match request.salt with
  | none => request.creator.created nonce
  | some salt =>
    request.creator.createdSalted (FixedBytes.ofNat 32 salt.toNat) (keccak256 request.initCode)

/-- How a creation begins. -/
inductive CreationStart where
  | refused (finish : Finish) (journal : Journal)
  /-- At an address; `earlier` is the journal to go back to if the frame fails. -/
  | started (address : Address) (earlier journal : Journal)

/-- Begins a creation: bumps the creator's nonce, then makes the new account with nonce one
and moves the value.  Without funds or at the last nonce nothing happens; a taken address or
a balance that would overflow keeps the bumped nonce. -/
def startCreation (journal : Journal) (request : CreateRequest) : CreationStart :=
  let (creator, journal) := journal.load request.creator
  if creator.info.balance < request.value then .refused (.halted .outOfFunds) journal
  else if maxUInt64 ≤ creator.info.nonce then .refused .returned journal
  else
    -- From here on the bump stays, whatever becomes of the creation.
    let bumped := { creator.info with nonce := creator.info.nonce + 1 }
    let journal := journal.put request.creator { creator with info := bumped }
    let address := request.address creator.info.nonce
    let (target, earlier) := journal.load address
    if target.info.codeHash ≠ emptyCodeHash ∨ target.info.nonce ≠ 0 then
      .refused (.halted .createCollision) earlier
    else if Word.size ≤ target.info.balance + request.value then
      .refused (.halted .overflowPayment) earlier
    else
      let funded := target.info.balance + request.value
      let info := { target.info with code := none, nonce := 1, balance := funded }
      let journal := earlier.put address
        { target with info := info, touched := true, created := true }
      let journal := journal.update request.creator fun live =>
        { live with info := { live.info with balance := live.info.balance - request.value } }
      .started address earlier journal

end Journal

end CreationGate
