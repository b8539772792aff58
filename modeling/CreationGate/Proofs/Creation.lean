import CreationGate.Proofs.Assembly.Programs
import CreationGate.Proofs.JournalView

/-!
# Creations from assembled code

A creation that begins gives the new account nonce one and no code, at an address that is not
its creator's, and leaves every other account its nonce, its code and its slots
(`Journal.startCreation_from`).  From the code of a deployment it then goes one of two ways:
the new account gets exactly the runtime, or everything is put back and there is no address
(`Frame.create_deployment`).
-/

namespace CreationGate

/-! ## How a creation begins -/

/-- The account with its nonce counted up. -/
def LiveAccount.counted (live : LiveAccount) : LiveAccount :=
  { live with info := { live.info with nonce := live.info.nonce + 1 } }

namespace Journal

/-- A creation that is refused: at most the nonce of its creator is counted up. -/
structure Refused (journal : Journal) (request : CreateRequest) (finish : Finish)
    (next : Journal) : Prop where
  reads : next.world.ReadsAs journal.world
  live : ∀ a, ∃ nonce, next.live a
    = { journal.live a with info := { (journal.live a).info with nonce := nonce } }
  /-- Only at the last nonce does a refusal look like a success. -/
  last_nonce : finish.isSuccess = true → maxUInt64 ≤ (journal.live request.creator).info.nonce

/-- A creation that begins: its creator counts its nonce up, in the journal to go back to as in
the one to go on with, and only the new account is more than paid or paid for. -/
structure Begun (journal : Journal) (request : CreateRequest) (address : Address)
    (earlier next : Journal) : Prop where
  address_eq : address = request.address (journal.live request.creator).info.nonce
  address_ne : address ≠ request.creator
  earlier_reads : earlier.world.ReadsAs journal.world
  earlier_live : ∀ a, earlier.live a
    = if a = request.creator then (journal.live request.creator).counted else journal.live a
  reads : next.world.ReadsAs journal.world
  new : ∃ info : AccountInfo, info.nonce = 1 ∧ next.live address
    = { journal.live address with info := info, touched := true, created := true }
  live : ∀ a, a ≠ address → (next.live a).Funded (earlier.live a)

/-- What is known of the beginning of a creation, refused or not. -/
inductive CreationStart.From (journal : Journal) (request : CreateRequest) :
    CreationStart → Prop where
  | refused {finish : Finish} {next : Journal} (h : journal.Refused request finish next) :
      From journal request (.refused finish next)
  | started {address : Address} {earlier next : Journal}
      (h : journal.Begun request address earlier next) :
      From journal request (.started address earlier next)

section Counted

variable {journal earlier : Journal} {request : CreateRequest}

/-- Once the nonce is counted up a creation may still be refused. -/
theorem Refused.of_counted (hreads : earlier.world.ReadsAs journal.world)
    (hearlier : ∀ a, earlier.live a
      = if a = request.creator then (journal.live request.creator).counted else journal.live a)
    (reason : HaltReason) : journal.Refused request (.halted reason) earlier := by
  refine ⟨hreads, fun a => ?_, fun hsuccess => by cases hsuccess⟩
  rw [hearlier]
  split
  next ha =>
    rw [ha]
    exact ⟨_, rfl⟩
  next => exact ⟨_, rfl⟩

/-- Else it begins.  The new account cannot be the creator's, whose nonce is above zero. -/
theorem Begun.of_counted (hreads : earlier.world.ReadsAs journal.world)
    (hearlier : ∀ a, earlier.live a
      = if a = request.creator then (journal.live request.creator).counted else journal.live a)
    {address : Address}
    (haddress : address = request.address (journal.live request.creator).info.nonce)
    (hfree : (earlier.live address).info.nonce = 0) (funded : Nat) :
    let target := earlier.live address
    let info := { target.info with code := none, nonce := 1, balance := funded }
    let new := { target with info := info, touched := true, created := true }
    journal.Begun request address earlier ((earlier.put address new).update request.creator
      fun live => { live with
        info := { live.info with balance := live.info.balance - request.value } }) := by
  have hne : address ≠ request.creator := by
    rintro rfl
    rw [hearlier, if_pos rfl] at hfree
    exact Nat.succ_ne_zero _ hfree
  have htarget := hearlier address
  rw [if_neg hne] at htarget
  intro target info new
  refine ⟨haddress, hne, hreads, hearlier, (readsAs_update _ _ _).trans hreads, ?_, ?_⟩
  · rw [live_update, if_neg hne, live_put, if_pos rfl, ← htarget]
    exact ⟨info, rfl, rfl⟩
  · intro a ha
    rw [live_update, live_put, live_put, if_neg ha, if_neg hne.symm]
    split
    next hcreator =>
      rw [hcreator]
      exact ⟨rfl, id⟩
    next => exact .refl _

end Counted

theorem startCreation_from (journal : Journal) (request : CreateRequest) :
    (journal.startCreation request).From journal request := by
  have hself : (journal.load request.creator).1 = journal.live request.creator := rfl
  have hloaded := journal.live_load request.creator
  have hreads₁ := journal.readsAs_load request.creator
  unfold startCreation
  generalize journal.load request.creator = loaded at hself hloaded hreads₁
  obtain ⟨creator, j₁⟩ := loaded
  simp only at hself hloaded hreads₁ ⊢
  subst hself
  by_cases hfunds : (journal.live request.creator).info.balance < request.value
  · rw [if_pos hfunds]
    exact .refused ⟨hreads₁, fun a => ⟨_, hloaded a⟩, fun hsuccess => by cases hsuccess⟩
  by_cases hlast : maxUInt64 ≤ (journal.live request.creator).info.nonce
  · rw [if_neg hfunds, if_pos hlast]
    exact .refused ⟨hreads₁, fun a => ⟨_, hloaded a⟩, fun _ => hlast⟩
  rw [if_neg hfunds, if_neg hlast]
  -- From here on the address is loaded from the journal in which the nonce is counted up.
  have hcounted : { journal.live request.creator with
      info := { (journal.live request.creator).info with
        nonce := (journal.live request.creator).info.nonce + 1 } }
      = (journal.live request.creator).counted := rfl
  have hview : ∀ a, (j₁.put request.creator (journal.live request.creator).counted).live a
      = if a = request.creator then (journal.live request.creator).counted
        else journal.live a := by
    intro a
    rw [live_put, hloaded]
  have hreads₂ : (j₁.put request.creator (journal.live request.creator).counted).world.ReadsAs
      journal.world := hreads₁
  rw [hcounted]
  generalize j₁.put request.creator _ = bumped at hview hreads₂ ⊢
  generalize haddress : request.address (journal.live request.creator).info.nonce = address
  have hreads := (bumped.readsAs_load address).trans hreads₂
  have hearlier := fun a => (bumped.live_load address a).trans (hview a)
  have hfound : (bumped.load address).1 = (bumped.load address).2.live address :=
    (bumped.live_load address address).symm
  generalize bumped.load address = loaded at hreads hearlier hfound ⊢
  obtain ⟨target, earlier⟩ := loaded
  simp only at hreads hearlier hfound ⊢
  subst hfound
  split
  next => exact .refused (.of_counted hreads hearlier _)
  next hfree =>
    split
    next => exact .refused (.of_counted hreads hearlier _)
    next =>
      have hzero : (earlier.live address).info.nonce = 0 :=
        Classical.not_not.mp fun hnonce => hfree (.inr hnonce)
      exact .started (.of_counted hreads hearlier haddress.symm hzero _)

end Journal

/-! ## How it ends -/

namespace Frame

/-- How a creation from the code of a deployment ends, and the journal that it leaves. -/
inductive Deployment (runtime : Bytes) (result : FrameResult) :
    Journal.CreationStart → Journal → Prop where
  /-- It never began. -/
  | refused {journal : Journal} (address : result.address = none) :
      Deployment runtime result (.refused result.finish journal) journal
  /-- It failed, and everything is put back. -/
  | undone {address : Address} {earlier journal : Journal} (none : result.address = none)
      (fails : result.finish.isSuccess = false) :
      Deployment runtime result (.started address earlier journal) (journal.restore earlier)
  /-- The runtime is the code of the new account. -/
  | deployed {address : Address} {earlier journal : Journal}
      (finish : result.finish = .returned) (output : result.output = runtime)
      (some : result.address = some address) :
      Deployment runtime result (.started address earlier journal)
        (journal.update address fun live => { live with info := live.info.withCode runtime })

/-- By the run of the code of the deployment, which returns the runtime or fails, and changes
no account either way. -/
theorem create_deployment (config : Config) (depth : Nat) {request : Journal.CreateRequest}
    {runtime : Bytes} (hcode : request.initCode = Assembly.deploy runtime)
    (hgas : request.gas ≤ maxUInt64) (host : Host) :
    Deployment runtime (create config (depth + 1) request host).1
      (host.journal.startCreation request) (create config (depth + 1) request host).2.journal := by
  rw [create]
  simp only
  have hcounted : host.countCreate.journal = host.journal := rfl
  rw [hcounted]
  cases hstart : host.journal.startCreation request with
  | refused finish journal => exact .refused rfl
  | started address earlier journal =>
    have hinstructions : ∀ instruction ∈ disassemble (Assembly.deploy runtime),
        instruction.isLocal = true := fun _ => Assembly.isLocal_of_mem_deploy
    have hlocal := Machine.journal_run ⟨config, address⟩ (create config depth) hinstructions
      { gas := request.gas } { host.countCreate with journal := journal }
    have hreturns := @Machine.run_deploy ⟨config, address⟩ (create config depth)
      { host.countCreate with journal := journal } request.gas hgas runtime
    rw [hcode]
    simp only
    generalize Machine.run _ _ _ _ _ = ended at hlocal hreturns
    obtain ⟨finish, output, m, left⟩ := ended
    simp only at hlocal hreturns ⊢
    unfold finishCreation
    rw [hlocal]
    cases hsuccess : finish.isSuccess with
    | false => exact .undone rfl hsuccess
    | true =>
      obtain ⟨m', left', hended⟩ := hreturns hsuccess
      cases hended
      cases deposit config runtime m.gas with
      | error reason => exact .undone rfl rfl
      | ok gas => exact .deployed rfl rfl rfl

/-- Below the last nonce a creation that succeeds has deployed the runtime. -/
theorem deployed_of_isSuccess {config : Config} {depth : Nat} {request : Journal.CreateRequest}
    {runtime : Bytes} (hcode : request.initCode = Assembly.deploy runtime)
    (hgas : request.gas ≤ maxUInt64) {host : Host}
    (hnonce : (host.journal.live request.creator).info.nonce < maxUInt64)
    (hsuccess : (create config (depth + 1) request host).1.finish.isSuccess = true) :
    ∃ address earlier next, host.journal.Begun request address earlier next
      ∧ (create config (depth + 1) request host).1.finish = .returned
      ∧ (create config (depth + 1) request host).1.output = runtime
      ∧ (create config (depth + 1) request host).1.address = some address
      ∧ (create config (depth + 1) request host).2.journal
        = next.update address fun live => { live with info := live.info.withCode runtime } := by
  have hends := create_deployment config depth hcode hgas host
  have hbegins := host.journal.startCreation_from request
  generalize host.journal.startCreation request = start at hends hbegins
  generalize (create config (depth + 1) request host).2.journal = journal at hends ⊢
  cases hends with
  | refused haddress =>
    cases hbegins with
    | refused hrefused => exact absurd (hrefused.last_nonce hsuccess) (Nat.not_le_of_lt hnonce)
  | undone haddress hfails =>
    rw [hfails] at hsuccess
    cases hsuccess
  | deployed hfinish houtput haddress =>
    cases hbegins with
    | started hbegun => exact ⟨_, _, _, hbegun, hfinish, houtput, haddress, rfl⟩

end Frame

/-! ## What surrounds the first frame -/

namespace Mainnet

/-- What is done before the first frame: the gas is paid for, the announced accounts and slots
are read and the authorizations applied. -/
def opened (config : Config) (block : Block) (tx : Transaction) (sender : LiveAccount)
    (journal : Journal) : Nat × Journal :=
  let paid := journal.put tx.caller (payForGas block tx sender)
  applyAuthorizations config tx (tx.announced.foldl Journal.announce paid)

/-- The changes of a transaction are those of its first frame and of the settlement. -/
theorem perform_eq (config : Config) (block : Block) (tx : Transaction) (sender : LiveAccount)
    (journal : Journal) :
    let opened := opened config block tx sender journal
    let framed := firstFrame config tx opened.2
    let settlement := settle config.spec tx opened.1 framed.1
    let settled := distribute block tx settlement framed.2.journal
    perform config block tx sender journal
      = (⟨resultOf tx settlement framed.1, settled.accounts, framed.2.tally⟩, settled.world) :=
  rfl

theorem funded_distribute (block : Block) (tx : Transaction) (settlement : Settlement)
    (journal : Journal) (a : Address) :
    ((distribute block tx settlement journal).live a).Funded (journal.live a) :=
  (Journal.funded_credit _ _ _ a).trans (journal.funded_credit _ _ a)

/-- A transaction goes through exactly if its first frame does, with the output of that. -/
theorem resultOf_eq_success {tx : Transaction} {settlement : Settlement} {result : FrameResult}
    {finish : Finish} {used refunded : Nat} {output : Bytes} {created : Option (Option Address)}
    (h : resultOf tx settlement result = .success finish used refunded output created) :
    result.finish = finish ∧ finish.isSuccess = true ∧ output = result.output
      ∧ created = if tx.isCreation then some result.address else none := by
  unfold resultOf at h
  cases hfinish : result.finish with
  | stopped =>
    rw [hfinish] at h
    cases h
    exact ⟨rfl, rfl, rfl, rfl⟩
  | returned =>
    rw [hfinish] at h
    cases h
    exact ⟨rfl, rfl, rfl, rfl⟩
  | reverted =>
    rw [hfinish] at h
    cases h
  | halted reason =>
    rw [hfinish] at h
    cases h

end Mainnet

end CreationGate
