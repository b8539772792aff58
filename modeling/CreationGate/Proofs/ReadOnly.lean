import CreationGate.Evm.Executor
import CreationGate.Proofs.Admission
import CreationGate.Proofs.Assembly.Programs

/-!
# Running reads the world and never writes it

All that a transaction does to the world, before its changes are written back, is to read it.
So a property of worlds that reading does not lose (`World.KeptByReads`) is not lost by running
a transaction, whatever code runs and however it ends (`World.KeptByReads.transact`).  Each
operation of a journal keeps the property, by induction on the code so does a frame, and by
induction on the depth so do the creations inside it.
-/

namespace CreationGate

/-- A property of worlds that reading does not lose. -/
structure World.KeptByReads (P : World → Prop) : Prop where
  basic : ∀ {world : World} (address : Address), P world → P (world.basic address).2
  codeOf : ∀ {world : World} (digest : Digest), P world → P (world.codeOf digest).2
  storage : ∀ {world : World} (address : Address) (slot : Word),
    P world → P (world.storage address slot).2

/-- The journal that a creation leaves as it begins or is refused. -/
def Journal.CreationStart.journal : Journal.CreationStart → Journal
  | refused _ journal => journal
  | started _ _ journal => journal

/-- A way of doing creations over whose worlds a property is kept. -/
def Creator.Keeps (P : World → Prop) (create : Creator) : Prop :=
  ∀ request (host : Host), P host.journal.world → P (create request host).2.journal.world

namespace World.KeptByReads

variable {P : World → Prop} (hP : KeptByReads P) {journal : Journal} {host : Host}
include hP

/-! ## Journals -/

theorem load (h : P journal.world) (address : Address) : P (journal.load address).2.world := by
  unfold Journal.load
  split
  next => exact h
  next => exact hP.basic address h

theorem update (h : P journal.world) (address : Address) (f : LiveAccount → LiveAccount) :
    P (journal.update address f).world :=
  hP.load h address

theorem credit (h : P journal.world) (address : Address) (amount : Nat) :
    P (journal.credit address amount).world :=
  hP.load h address

theorem loadCode (h : P journal.world) (address : Address) :
    P (journal.loadCode address).2.2.world := by
  have hload := hP.load h address
  unfold Journal.loadCode
  rcases hnext : journal.load address with ⟨live, next⟩
  rw [hnext] at hload
  simp only
  split
  next => exact hload
  next =>
    split
    next => exact hload
    next => exact hP.codeOf live.info.codeHash hload

theorem loadSlot (h : P journal.world) (address : Address) (slot : Word) :
    P (journal.loadSlot address slot).2.2.world := by
  have hload := hP.load h address
  unfold Journal.loadSlot
  rcases hnext : journal.load address with ⟨live, next⟩
  rw [hnext] at hload
  cases hslot : live.slots.get? slot with
  | some s =>
    simp only [hslot]
    exact hload
  | none =>
    simp only [hslot]
    cases live.created with
    | true => exact hload
    | false => exact hP.storage address slot hload

theorem announce (h : P journal.world) (item : Address × List Word) :
    P (journal.announce item).world := by
  have hslots : ∀ (slots : List Word) (journal : Journal), P journal.world →
      P (slots.foldl (fun journal slot => (journal.loadSlot item.1 slot).2.2) journal).world := by
    intro slots
    induction slots with
    | nil => intro journal h; exact h
    | cons slot rest ih => intro journal h; exact ih _ (hP.loadSlot h item.1 slot)
  exact hslots item.2 _ (hP.load h item.1)

theorem announceAll (h : P journal.world) (items : List (Address × List Word)) :
    P (items.foldl Journal.announce journal).world := by
  induction items generalizing journal with
  | nil => exact h
  | cons item rest ih => exact ih (hP.announce h item)

theorem keepRead (h : P journal.world) (address : Address) (undone : LiveAccount) :
    P (journal.keepRead address undone).world := by
  unfold Journal.keepRead
  split
  next => exact h
  next => exact hP.update h address _

/-- By induction on the accounts of the frame that is undone. -/
theorem restore (h : P journal.world) (earlier : Journal) : P (journal.restore earlier).world := by
  have hfold : ∀ (entries : List (Address × LiveAccount)) (kept : Journal), P kept.world →
      P (entries.foldl (fun kept e => kept.keepRead e.1 e.2) kept).world := by
    intro entries
    induction entries with
    | nil => intro kept h; exact h
    | cons e rest ih => intro kept h; exact ih _ (hP.keepRead h e.1 e.2)
  exact hfold journal.accounts.entries { journal with accounts := earlier.accounts } h

theorem transfer (h : P journal.world) (caller target : Address) (value : Nat) :
    P (journal.transfer caller target value).2.world := by
  have hloaded := hP.load (hP.load h caller) target
  have hpaid := hP.update hloaded caller fun live =>
    { live with
      touched := true
      info := { live.info with balance := live.info.balance - value } }
  unfold Journal.transfer
  simp only
  split
  next => exact hloaded
  next =>
    split
    next => exact hloaded
    next =>
      split
      next => exact hP.update hloaded target _
      next =>
        split
        next => exact hP.credit hpaid target value
        next => exact hpaid

theorem startCreation (h : P journal.world) (request : Journal.CreateRequest) :
    P (journal.startCreation request).journal.world := by
  have hcreator := hP.load h request.creator
  unfold Journal.startCreation
  rcases hload : journal.load request.creator with ⟨creator, next⟩
  rw [hload] at hcreator
  simp only
  split
  next => exact hcreator
  next =>
    split
    next => exact hcreator
    next =>
      -- The target is loaded from the journal in which the creator's nonce is counted up.
      have hbumped : P (next.put request.creator { creator with
          info := { creator.info with nonce := creator.info.nonce + 1 } }).world := hcreator
      have htarget := hP.load hbumped (request.address creator.info.nonce)
      split
      next => exact htarget
      next =>
        split
        next => exact htarget
        next =>
          simp only [Journal.CreationStart.journal]
          refine hP.update ?_ request.creator _
          exact htarget

/-! ## Frames -/

theorem sstore (h : P host.journal.world) (m : Machine) (address : Address) :
    P (m.sstore host address).journal.world := by
  unfold Machine.sstore
  cases m.pop2 with
  | error reason => exact h
  | ok popped =>
    obtain ⟨slot, value, m'⟩ := popped
    have hslot := hP.loadSlot h address slot
    simp only
    split
    next => exact hslot
    next =>
      split
      next => exact hslot
      next => exact hslot

omit hP in
theorem createContract (h : P host.journal.world) {create : Creator} (hcreate : create.Keeps P)
    (m : Machine) (context : FrameContext) (salted : Bool) :
    P (m.createContract host context create salted).journal.world := by
  unfold Machine.createContract
  cases m.takeCreation context salted with
  | error reason => exact h
  | ok taken =>
    simp only
    rw [Progress.journal_ofMachine]
    exact hcreate taken.1 host h

/-- Every instruction keeps the property. -/
theorem step (h : P host.journal.world) {create : Creator} (hcreate : create.Keeps P)
    (m : Machine) (context : FrameContext) (instruction : Instruction) :
    P (m.step host context create instruction).journal.world := by
  cases hlocal : instruction.isLocal with
  | true =>
    rw [Machine.journal_step context create m host hlocal]
    exact h
  | false =>
    cases instruction with
    | sstore => exact hP.sstore h m context.address
    | create => exact createContract h hcreate m context false
    | create2 => exact createContract h hcreate m context true
    | _ => cases hlocal

/-- By induction on the code. -/
theorem run (h : P host.journal.world) {create : Creator} (hcreate : create.Keeps P)
    (m : Machine) (context : FrameContext) (code : List Instruction) :
    P (m.run host context create code).2.2.2.journal.world := by
  induction code generalizing m host with
  | nil => exact h
  | cons instruction rest ih =>
    have hcounted : P host.countStep.journal.world := h
    have hstep := hP.step hcounted hcreate m context instruction
    rw [Machine.run]
    cases hprogress : m.step host.countStep context create instruction with
    | next m' host' =>
      rw [hprogress] at hstep
      exact ih hstep m'
    | done finish output m' host' =>
      rw [hprogress] at hstep
      exact hstep

theorem finishCreation (h : P host.journal.world) (config : Config) (address : Address)
    (earlier : Journal) (finish : Finish) (output : Bytes) (m : Machine) :
    P (Frame.finishCreation config address earlier finish output m host).2.journal.world := by
  have hundone := hP.restore h earlier
  unfold Frame.finishCreation
  simp only
  split
  next =>
    split
    next => exact hP.update h address _
    next => exact hundone
  next => exact hundone

/-- By induction on the depth that is left. -/
theorem create (config : Config) (depth : Nat) : (Frame.create config depth).Keeps P := by
  induction depth with
  | zero => intro request host h; exact h
  | succ depth ih =>
    intro request host h
    have hstart := hP.startCreation h request
    rw [Frame.create]
    simp only [Host.countCreate]
    cases hbegun : host.journal.startCreation request with
    | refused finish journal =>
      rw [hbegun] at hstart
      exact hstart
    | started address earlier journal =>
      rw [hbegun] at hstart
      exact hP.finishCreation (hP.run hstart ih _ _ _) config address earlier _ _ _

theorem codeToRun (h : P journal.world) (target : Address) :
    P (Frame.codeToRun journal target).2.world := by
  have htarget := hP.loadCode h target
  unfold Frame.codeToRun
  simp only
  split
  next => exact htarget
  next address _ => exact hP.loadCode htarget address

theorem call (h : P host.journal.world) (config : Config) (caller target : Address)
    (value gas : Nat) : P (Frame.call config caller target value gas host).2.journal.world := by
  have hcounted : P host.countCall.journal.world := h
  unfold Frame.call
  generalize host.countCall = counted at hcounted
  have hmoved := hP.transfer hcounted caller target value
  rcases htransfer : counted.journal.transfer caller target value with ⟨_ | reason, journal⟩
  · rw [htransfer] at hmoved
    have hcode : P ({ counted with journal := (Frame.codeToRun journal target).2 } :
        Host).journal.world := hP.codeToRun hmoved target
    have hran := hP.run hcode (hP.create config (Frame.maxDepth - 1)) { gas := gas }
      ⟨config, target⟩ (disassemble (Frame.codeToRun journal target).1)
    simp only [htransfer]
    split
    next => exact hcode
    next =>
      split
      next => exact hran
      next => exact hP.restore hran counted.journal
  · rw [htransfer] at hmoved
    simp only [htransfer]
    exact hmoved

/-! ## Transactions -/

theorem authorize (h : P journal.world) (chainId existing : Nat) (item : Authorization) :
    P (Mainnet.authorize chainId (existing, journal) item).2.world := by
  have hcode := hP.loadCode h item.authority
  unfold Mainnet.authorize
  simp only
  split
  next => exact h
  next =>
    split
    next => exact h
    next =>
      split
      next => exact hcode
      next =>
        split
        next => exact hcode
        next => exact hcode

theorem applyAuthorizations (h : P journal.world) (config : Config) (tx : Transaction) :
    P (Mainnet.applyAuthorizations config tx journal).2.world := by
  have hfold : ∀ (items : List Authorization) (existing : Nat) (journal : Journal),
      P journal.world →
        P (items.foldl (Mainnet.authorize config.chainId) (existing, journal)).2.world := by
    intro items
    induction items with
    | nil => intro existing journal h; exact h
    | cons item rest ih =>
      intro existing journal h
      exact ih _ _ (hP.authorize h config.chainId existing item)
  unfold Mainnet.applyAuthorizations
  split
  next => exact hfold tx.authorizations 0 journal h
  next => exact h

theorem firstFrame (h : P journal.world) (config : Config) (tx : Transaction) :
    P (Mainnet.firstFrame config tx journal).2.journal.world := by
  unfold Mainnet.firstFrame
  simp only
  split
  next => exact hP.create config Frame.maxDepth _ _ h
  next target _ => exact hP.call h config tx.caller target tx.value _

theorem distribute (h : P journal.world) (block : Block) (tx : Transaction)
    (settlement : Settlement) : P (Mainnet.distribute block tx settlement journal).world := by
  have hsender := hP.credit h tx.caller
    (tx.effectiveGasPrice block.baseFee * (tx.gasLimit - settlement.used))
  exact hP.credit hsender block.beneficiary
    ((tx.effectiveGasPrice block.baseFee - block.baseFee) * settlement.used)

theorem perform (h : P journal.world) (config : Config) (block : Block) (tx : Transaction)
    (sender : LiveAccount) : P (Mainnet.perform config block tx sender journal).2 := by
  have hpaid : P (journal.put tx.caller (Mainnet.payForGas block tx sender)).world := h
  have hauthorized := hP.applyAuthorizations (hP.announceAll hpaid tx.announced) config tx
  have hframe := hP.firstFrame hauthorized config tx
  unfold Mainnet.perform
  exact hP.distribute hframe block tx _

theorem transactMainnet {world : World} (h : P world) (config : Config) (block : Block)
    (tx : Transaction) : P (Mainnet.transact config block world tx).2 := by
  have hstart : P (⟨∅, world⟩ : Journal).world := h
  have hsender := hP.loadCode hstart tx.caller
  rcases Mainnet.transact_cases config block world tx with
    ⟨_, _, _, heq⟩ | ⟨_, _, _, heq⟩ | ⟨_, heq⟩
  · rw [heq]
    exact h
  · rw [heq]
    exact hsender
  · rw [heq]
    exact hP.perform hsender config block tx _

/-- Running a transaction through the gate, without writing its changes back, keeps whatever
reading keeps. -/
theorem transact {world : World} (h : P world) (executor : Executor) (tx : Transaction) :
    P (executor.transact world tx).value.2 := by
  rcases executor.transact_cases world tx with ⟨e, _, heq⟩ | ⟨_, heq⟩
  · rw [heq]
    exact h
  · rw [heq]
    exact hP.transactMainnet h executor.config executor.block tx

end World.KeptByReads

end CreationGate
