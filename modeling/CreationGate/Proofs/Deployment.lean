import CreationGate.Proofs.Creation
import CreationGate.Proofs.Reachable

/-!
# Deployments

A transaction that creates a contract from the code of a deployment, run through the gate and
written back, leaves the assembled runtime at the address of the sender's nonce.  Along the
transaction every other account keeps its code and its slots, and every account but the sender
its nonce (`LiveAccount.Kept`), so writing it back changes none of them.
-/

namespace CreationGate

/-! ## Accounts that keep what they have -/

/-- An account of a transaction that has the code that a world holds and no slots of its own,
and was neither created nor destroyed. -/
structure LiveAccount.Kept (world : World) (held : HeldAccount) (live : LiveAccount) :
    Prop where
  code : world.codeFor live.info = world.codeFor held.info
  slots : live.slots = ∅
  created : live.created = false
  destroyed : live.destroyed = false

namespace LiveAccount.Kept

variable {world : World} {held : HeldAccount} {live : LiveAccount}

/-- Balance, nonce and the touch of an account are free. -/
theorem withFunds (h : live.Kept world held) (balance nonce : Nat) (touched : Bool) :
    LiveAccount.Kept world held { live with
      touched := touched
      info := { live.info with balance := balance, nonce := nonce } } :=
  ⟨h.code, h.slots, h.created, h.destroyed⟩

theorem of_funded {later : LiveAccount} (hfunded : later.Funded live) (h : live.Kept world held) :
    later.Kept world held := by
  rw [hfunded.eq]
  exact h.withFunds _ _ _

end LiveAccount.Kept

/-- What a coherent world holds is what a journal over it says of an account. -/
theorem Journal.info_live_start {world : World} (h : world.Coherent) (a : Address) :
    ((⟨∅, world⟩ : Journal).live a).info = (world.held a).info := by
  rw [live_start, World.basic_eq]
  unfold HeldAccount.info?
  split
  next habsent => rw [h.absent a habsent]; rfl
  next => rfl

theorem Journal.kept_start {world : World} (h : world.Coherent) (a : Address) :
    ((⟨∅, world⟩ : Journal).live a).Kept world (world.held a) := by
  refine ⟨?_, ?_, ?_, ?_⟩
  · rw [info_live_start h]
  all_goals
    rw [live_start]
    cases (world.basic a).1 <;> rfl

/-- An account with code that will be written back. -/
structure LiveAccount.Deployed (runtime : Bytes) (live : LiveAccount) : Prop where
  code : live.info.code = some runtime
  touched : live.touched = true
  destroyed : live.destroyed = false

theorem LiveAccount.Deployed.of_funded {runtime : Bytes} {live later : LiveAccount}
    (hfunded : later.Funded live) (h : live.Deployed runtime) : later.Deployed runtime :=
  ⟨hfunded.code_eq.trans h.code, hfunded.touched h.touched, hfunded.destroyed_eq.trans h.destroyed⟩

/-- The account of a creation that gets its code. -/
theorem Journal.Begun.deployed {journal : Journal} {request : CreateRequest} {address : Address}
    {earlier next : Journal} (h : journal.Begun request address earlier next)
    (hkept : (journal.live address).destroyed = false) (runtime : Bytes) :
    ((next.update address fun live =>
      { live with info := live.info.withCode runtime }).live address).Deployed runtime := by
  obtain ⟨info, _, hnew⟩ := h.new
  rw [live_update, if_pos rfl, hnew]
  exact ⟨rfl, rfl, hkept⟩

/-- A journal in which a deployment is done: the new account has the runtime, its creator one
nonce more, and every other account what it had. -/
structure Journal.Deployed (world : World) (caller address : Address) (runtime : Bytes)
    (journal : Journal) : Prop where
  new : (journal.live address).Deployed runtime
  nonce : (journal.live caller).info.nonce = world.nonce caller + 1
  paid : (journal.live caller).touched = true
  address_ne : address ≠ caller
  kept : ∀ other, other ≠ address → (journal.live other).Kept world (world.held other)

namespace Journal.Deployed

variable {world : World} {caller address : Address} {runtime : Bytes} {journal : Journal}

theorem of_funded (h : journal.Deployed world caller address runtime) {next : Journal}
    (hfunded : ∀ a, (next.live a).Funded (journal.live a)) :
    next.Deployed world caller address runtime := by
  refine ⟨.of_funded (hfunded _) h.new, ?_, (hfunded _).touched h.paid, h.address_ne,
    fun other hother => .of_funded (hfunded other) (h.kept other hother)⟩
  rw [(hfunded _).nonce_eq, h.nonce]

/-- A creation that began and got its code, over accounts that had kept what they had. -/
theorem of_begun {earlier next : Journal} {request : Journal.CreateRequest}
    (hbegun : journal.Begun request address earlier next)
    (hkept : ∀ a, (journal.live a).Kept world (world.held a))
    (hnonce : (journal.live request.creator).info.nonce = world.nonce request.creator)
    (hpaid : (journal.live request.creator).touched = true) (runtime : Bytes) :
    (next.update address fun live =>
      { live with info := live.info.withCode runtime }).Deployed world request.creator address
        runtime := by
  have hcreator := hbegun.earlier_live request.creator
  rw [if_pos rfl] at hcreator
  have hfunded := hbegun.live request.creator hbegun.address_ne.symm
  rw [hcreator] at hfunded
  refine ⟨hbegun.deployed (hkept address).destroyed runtime, ?_, ?_, hbegun.address_ne,
    fun other hother => ?_⟩
  · rw [live_update, if_neg hbegun.address_ne.symm, hfunded.nonce_eq, ← hnonce]
    rfl
  · rw [live_update, if_neg hbegun.address_ne.symm]
    exact hfunded.touched hpaid
  · rw [live_update, if_neg hother]
    refine .of_funded (hbegun.live other hother) ?_
    rw [hbegun.earlier_live]
    split
    next ha =>
      rw [ha]
      exact (hkept request.creator).withFunds _ _ _
    next => exact hkept other

end Journal.Deployed

namespace World

/-- Writing back an account that kept what it had changes neither its code nor a slot. -/
theorem commit_kept {world : World} (h : world.Coherent) {changes : LiveAccounts} {a : Address}
    (hkept : ∀ live, changes.get? a = some live →
      live.Kept world (world.held a) ∧ world.Knows live.info) :
    (world.commit changes).code? a = world.code? a
      ∧ ∀ slot, (world.commit changes).slot? a slot = world.slot? a slot := by
  have hcodes := world.keepsCodes_commit changes
  have hunwritten : (world.commit changes).held a = world.held a →
      (world.commit changes).code? a = world.code? a
        ∧ ∀ slot, (world.commit changes).slot? a slot = world.slot? a slot := by
    intro hsame
    refine ⟨?_, fun slot => ?_⟩
    · rw [code?_eq, code?_eq, hsame, codeFor_of_keepsCodes hcodes (h.complete a)]
    · rw [slot?_eq, slot?_eq, hsame]
  cases hget : changes.get? a with
  | none =>
    refine hunwritten ?_
    rw [held_commit, hget]
  | some live =>
    obtain ⟨hlive, hknows⟩ := hkept live hget
    cases htouched : live.touched with
    | false =>
      refine hunwritten ?_
      rw [held_commit, hget]
      simp only
      rw [held_commitAccount, htouched]
      rfl
    | true =>
      have hheld : (world.commit changes).held a
          = (world.held a).committed (world.storeCode live.info).1 live :=
        held_commit_of_touched hget htouched hlive.destroyed
      refine ⟨?_, fun slot => ?_⟩
      · rw [code?_eq, code?_eq, hheld, HeldAccount.committed,
          codeFor_storeCode hcodes h.zero hknows, hlive.code]
      · rw [slot?_eq, slot?_eq, hheld, HeldAccount.committed, hlive.created, hlive.slots,
          SortedMap.get?_extend, SortedMap.get?_mapValues]
        rfl

/-- Writing back an account with code at hand leaves it that code. -/
theorem code?_commit {world : World} {journal : Journal} {a : Address} {code : Bytes}
    (h : (journal.live a).Deployed code) :
    (world.commit journal.accounts).code? a = if code = [] then none else some code := by
  have hcode : (world.commit journal.accounts).codeFor
      ((world.commit journal.accounts).held a).info = code := by
    rw [held_commit_of_touched (Journal.get?_of_touched h.touched) h.touched h.destroyed,
      HeldAccount.committed, codeFor, code_storeCode, h.code, Option.getD_some]
  rw [code?_eq, hcode]

theorem nonce_commit {world : World} {changes : LiveAccounts} {a : Address} {live : LiveAccount}
    (hget : changes.get? a = some live) (htouched : live.touched = true)
    (hkept : live.destroyed = false) :
    (world.commit changes).nonce a = live.info.nonce := by
  have hnonce : (world.storeCode live.info).1.nonce = live.info.nonce := by
    unfold storeCode
    split <;> rfl
  rw [nonce_eq, held_commit_of_touched hget htouched hkept, HeldAccount.committed, hnonce]

/-- Writing a deployment back shows the runtime at the new address, the nonce at the creator,
and elsewhere the code and the slots that there were. -/
theorem commit_deployed {world : World} (h : world.Coherent) {journal : Journal}
    {caller address : Address} {runtime : Bytes}
    (hdeployed : journal.Deployed world caller address runtime)
    (hadds : journal.world.AddsCopies world)
    (hknows : ∀ a live, journal.accounts.get? a = some live → world.Knows live.info) :
    let last := journal.world.commit journal.accounts
    last.code? address = (if runtime = [] then none else some runtime)
      ∧ last.nonce caller = world.nonce caller + 1
      ∧ ∀ other, other ≠ address →
        last.code? other = world.code? other
          ∧ (∀ slot, (last.storage other slot).1 = (world.storage other slot).1)
          ∧ ∀ slot value, world.slot? other slot = some value →
            last.slot? other slot = some value := by
  have hleft := h.of_addsCopies hadds
  have hcaller := hdeployed.kept caller hdeployed.address_ne.symm
  refine ⟨?_, ?_, fun other hother => ?_⟩
  · exact code?_commit hdeployed.new
  · rw [nonce_commit (Journal.get?_of_touched hdeployed.paid) hdeployed.paid hcaller.destroyed,
      hdeployed.nonce]
  · have hkept := hdeployed.kept other hother
    have hunchanged : ∀ live, journal.accounts.get? other = some live →
        live.Kept journal.world (journal.world.held other) ∧ journal.world.Knows live.info := by
      intro live hget
      rw [Journal.live_of_get? hget] at hkept
      refine ⟨⟨?_, hkept.slots, hkept.created, hkept.destroyed⟩,
        (hadds.knows_iff live.info).mpr (hknows other live hget)⟩
      rw [(hadds.held other).info, hadds.codeFor, hadds.codeFor, hkept.code]
    obtain ⟨hcode, hslots⟩ := commit_kept hleft hunchanged
    refine ⟨hcode.trans (hadds.code? other), fun slot => ?_, fun slot value hvalue => ?_⟩
    · have hread := hadds.readsAs.storage other slot
      rw [storage_eq, ← slot?_eq] at hread ⊢
      rw [hslots]
      exact hread
    · rw [hslots]
      rw [slot?_eq] at hvalue ⊢
      rcases (hadds.held other).slots slot with hsame | ⟨hnone, _⟩
      · rw [hsame, hvalue]
      · rw [hnone] at hvalue
        cases hvalue

end World

/-! ## The transaction -/

namespace Mainnet

/-- Before its first frame a creation has looked at its sender and taken the price of the gas;
every account has kept what it had. -/
theorem kept_before {world : World} (h : world.Coherent) (block : Block) (tx : Transaction)
    (hcreation : tx.isCreation = true) (a : Address) :
    let loaded := Journal.loadCode ⟨∅, world⟩ tx.caller
    let live := (loaded.2.2.put tx.caller (payForGas block tx loaded.1)).live a
    live.Kept world (world.held a) ∧ live.info.nonce = (world.held a).info.nonce
      ∧ (a = tx.caller → live.touched = true) := by
  have hkept := Journal.kept_start h
  have hinfo := Journal.info_live_start h
  obtain ⟨code, hcode, hsender, hview⟩ := Journal.live_loadCode ⟨∅, world⟩ tx.caller
  intro loaded live
  simp only [live, loaded, Journal.live_put, hview]
  split
  next ha =>
    rw [hsender, payForGas, if_pos hcreation, ha, ← hinfo]
    have hread := hcode.trans (congrArg world.codeFor (hinfo tx.caller))
    exact ⟨⟨hread, (hkept _).slots, (hkept _).created, (hkept _).destroyed⟩, rfl, fun _ => rfl⟩
  next ha => exact ⟨hkept a, by rw [hinfo], fun hsame => absurd hsame ha⟩

/-- A plain transaction announces and authorizes nothing. -/
theorem opened_of_legacy {tx : Transaction} (h : tx.type = .legacy) (config : Config)
    (block : Block) (sender : LiveAccount) (journal : Journal) :
    opened config block tx sender journal
      = (0, journal.put tx.caller (payForGas block tx sender)) := by
  have hannounced : tx.announced = [] := by
    rw [Transaction.announced, if_pos h]
  have hplain : tx.type ≠ .setCode := by
    rw [h]
    decide
  unfold opened
  rw [hannounced]
  simp only [List.foldl_nil, applyAuthorizations, if_neg hplain]

/-- The first frame of a creation opens with as many frames below it as there may be. -/
theorem firstFrame_creationBy (config : Config) (world : World) (caller : Address)
    (initCode : Bytes) (journal : Journal) :
    ∃ gas ≤ maxUInt64, firstFrame config (world.creationBy caller initCode) journal
      = Frame.create config (1024 + 1) ⟨caller, 0, initCode, none, gas⟩ ⟨journal, {}⟩ := by
  have hlimit : 10000000 ≤ maxUInt64 := by decide
  exact ⟨_, Nat.le_trans (Nat.sub_le _ _) hlimit, rfl⟩

end Mainnet

/-! ## Transactions that go through -/

def ExecutionResult.isSuccess : ExecutionResult → Bool
  | .success _ _ _ _ _ => true
  | _ => false

theorem ExecutionResult.exists_of_isSuccess {result : ExecutionResult}
    (h : result.isSuccess = true) :
    ∃ finish used refunded output created,
      result = .success finish used refunded output created := by
  unfold isSuccess at h
  split at h
  next finish used refunded output created =>
    exact ⟨finish, used, refunded, output, created, rfl⟩
  next => cases h

/-- Whether a transaction goes through and leaves a world that passes a test. -/
def Executor.leaves (executor : Executor) (world : World) (tx : Transaction)
    (test : World → Bool) : Bool :=
  match (executor.transactCommit world tx).value with
  | (.ok execution, last) => execution.result.isSuccess && test last
  | (.error _, _) => false

theorem Executor.exists_of_leaves {executor : Executor} {world : World} {tx : Transaction}
    {test : World → Bool} (h : executor.leaves world tx test = true) :
    ∃ execution last finish used refunded output created,
      (executor.transactCommit world tx).value = (.ok execution, last)
        ∧ execution.result = .success finish used refunded output created
        ∧ test last = true := by
  unfold leaves at h
  split at h
  next execution last hrun =>
    obtain ⟨hsuccess, htest⟩ := Bool.and_eq_true_iff.mp h
    obtain ⟨finish, used, refunded, output, created, hresult⟩ :=
      ExecutionResult.exists_of_isSuccess hsuccess
    exact ⟨execution, last, finish, used, refunded, output, created, hrun, hresult, htest⟩
  next => cases h

/-- **A deployment stores exactly the assembled runtime.**  Whatever history the world has, if
the transaction in which a sender below the last nonce creates a contract from the code that
deploys a runtime goes through and is written back, then the new contract is at the address of
the sender's nonce, the output and the code there are the runtime, byte for byte, and the
sender's nonce is counted up by one.  An empty runtime leaves no code.  No other account has
other code than before, no slot of another account reads otherwise, and each copy of such a
slot is still there. -/
theorem deployment_stores_assembled_runtime (executor : Executor) {world : World}
    (hworld : world.Reachable) (caller : Address) (hnonce : world.nonce caller < maxUInt64)
    (runtime : Bytes) {execution : Execution} {last : World}
    (hrun : (executor.transactCommit world
      (world.creationBy caller (Assembly.deploy runtime))).value = (.ok execution, last))
    {finish : Finish} {used refunded : Nat} {output : Bytes} {created : Option (Option Address)}
    (hsuccess : execution.result = .success finish used refunded output created) :
    let address := caller.created (world.nonce caller)
    created = some (some address)
      ∧ output = runtime
      ∧ last.code? address = (if runtime = [] then none else some runtime)
      ∧ last.nonce caller = world.nonce caller + 1
      ∧ ∀ other, other ≠ address →
        last.code? other = world.code? other
          ∧ (∀ slot, (last.storage other slot).1 = (world.storage other slot).1)
          ∧ ∀ slot value, world.slot? other slot = some value →
            last.slot? other slot = some value := by
  have hcoherent := hworld.coherent
  obtain ⟨left, htransact, rfl⟩ := executor.transactCommit_eq_ok hrun
  obtain ⟨hadds, hknows⟩ := World.Reachable.knows_changes hcoherent.complete executor _ htransact
  obtain ⟨_, hmainnet⟩ := executor.transact_eq_ok htransact
  obtain ⟨_, hperform⟩ := Mainnet.transact_eq_ok hmainnet
  clear htransact hmainnet hrun
  have hbefore := Mainnet.kept_before hcoherent executor.block
    (world.creationBy caller (Assembly.deploy runtime)) rfl
  rw [Mainnet.perform_eq, Mainnet.opened_of_legacy rfl] at hperform
  simp only at hperform hbefore
  generalize Journal.put _ _ _ = before at hperform hbefore
  obtain ⟨rfl, rfl⟩ := Prod.mk.inj hperform
  obtain ⟨rfl, hsuccessful, rfl, rfl⟩ := Mainnet.resultOf_eq_success hsuccess
  have hsender : (before.live caller).info.nonce = world.nonce caller := by
    rw [world.nonce_eq]
    exact (hbefore caller).2.1
  obtain ⟨gas, hgas, hframe⟩ := Mainnet.firstFrame_creationBy executor.config world caller
    (Assembly.deploy runtime) before
  rw [hframe] at hsuccessful hadds hknows ⊢
  obtain ⟨address, earlier, next, hbegun, _, houtput, haddress, hjournal⟩ :=
    Frame.deployed_of_isSuccess rfl hgas (by rw [hsender]; exact hnonce) hsuccessful
  have hat : address = caller.created (world.nonce caller) := by
    rw [hbegun.address_eq, hsender]
    rfl
  have hdeployed := Journal.Deployed.of_begun hbegun (fun a => (hbefore a).1) hsender
    ((hbefore caller).2.2 rfl) runtime
  rw [← hjournal] at hdeployed
  have hwritten := World.commit_deployed hcoherent
    (hdeployed.of_funded (Mainnet.funded_distribute _ _ _ _)) hadds hknows
  rw [hat] at hwritten haddress
  have hcreation : (world.creationBy caller (Assembly.deploy runtime)).isCreation = true := rfl
  refine ⟨?_, houtput, hwritten⟩
  rw [if_pos hcreation, haddress]

/-- A member with a balance deploys two bytes at its first nonce. -/
theorem deployment_stores_two_bytes :
    let deployer : Address := .repeated 20 1
    let world := World.empty.setBalance deployer 5
    let executor : Executor := { gate := ⟨.memory (.ofList [Account.ofAddress deployer])⟩ }
    let tx := world.creationBy deployer (Assembly.deploy [0x00, 0x01])
    ∃ execution last finish used refunded,
      (executor.transactCommit world tx).value = (.ok execution, last)
        ∧ execution.result
          = .success finish used refunded [0x00, 0x01] (some (some (deployer.created 0)))
        ∧ last.code? (deployer.created 0) = some [0x00, 0x01] ∧ last.nonce deployer = 1 := by
  intro deployer world executor tx
  have hworld : world.Reachable := .setBalance .empty deployer 5
  have hnonce : world.nonce deployer = 0 := by decide +kernel
  have hleaves : executor.leaves world tx (fun _ => true) = true := by decide +kernel
  obtain ⟨execution, last, finish, used, refunded, output, created, hrun, hsuccess, _⟩ :=
    Executor.exists_of_leaves hleaves
  have hbelow : world.nonce deployer < maxUInt64 := by
    rw [hnonce]
    decide
  obtain ⟨hcreated, houtput, hcode, hcounted, _⟩ :=
    deployment_stores_assembled_runtime executor hworld deployer hbelow [0x00, 0x01] hrun hsuccess
  rw [hnonce] at hcreated hcode hcounted
  rw [hcreated, houtput] at hsuccess
  exact ⟨execution, last, finish, used, refunded, hrun, hsuccess, hcode, hcounted⟩

end CreationGate
