import CreationGate.Proofs.Deployment

/-!
# Contracts that create contracts

A call to a factory runs its code, whoever the sender is and whatever the gate holds.  Up to
that run the transaction leaves the factory its nonce and its code (`Journal.Hosts`): the
sender has no code of its own, so it is not the factory, and an address that has is authorized
for nothing.  The run asks for one creation, which leaves nothing or the runtime at the new
address (`Frame.answered_create`), and the first slot of the factory names that address or is
zero.
-/

namespace CreationGate

/-! ## The code of a factory -/

/-- Code that an account runs itself: there is some, and it is no delegation. -/
structure OwnCode (code : Bytes) : Prop where
  ne_nil : code ≠ []
  delegate? : delegate? code = none

theorem OwnCode.of_push {code immediate : Bytes} {rest : List Instruction}
    (h : disassemble code = .push immediate :: rest) : OwnCode code := by
  refine ⟨?_, ?_⟩
  · rintro rfl
    rw [disassemble] at h
    cases h
  · unfold CreationGate.delegate?
    split
    next =>
      rw [Assembly.disassemble_opcode (by decide)] at h
      cases h
    next => rfl

/-- A factory begins with a push. -/
theorem Assembly.ownCode_factory (runtime : Bytes) (salt : Option Word) :
    OwnCode (factory runtime salt) := by
  have hcode := disassemble_factory runtime salt
  rw [creation_eq] at hcode
  cases hpieces : pieces (deploy runtime) with
  | nil =>
    rw [hpieces] at hcode
    cases salt with
    | none => exact .of_push hcode
    | some salt => exact .of_push hcode
  | cons piece later =>
    rw [hpieces] at hcode
    exact .of_push hcode

/-! ## Accounts up to the first frame -/

/-- A journal over a world in which no account is destroyed and the account at an address has
a nonce and code of its own. -/
structure Journal.Hosts (world : World) (address : Address) (nonce : Nat) (code : Bytes)
    (journal : Journal) : Prop where
  reads : journal.world.ReadsAs world
  kept : ∀ a, (journal.live a).destroyed = false
  nonce : (journal.live address).info.nonce = nonce
  code : world.codeFor (journal.live address).info = code

namespace Journal.Hosts

variable {world : World} {address : Address} {nonce : Nat} {code : Bytes} {journal : Journal}

theorem start {info : AccountInfo} (h : (world.basic address).1 = some info) :
    Hosts world address info.nonce (world.codeFor info) ⟨∅, world⟩ := by
  refine ⟨.refl world, fun a => ?_, ?_, ?_⟩
  · rw [live_start]
    cases (world.basic a).1 <;> rfl
  · rw [live_start, h]
    rfl
  · rw [live_start, h]
    rfl

/-- What keeps the nonce and the code of one account, and destroys none, may do the rest. -/
theorem of_live (h : journal.Hosts world address nonce code) {next : Journal}
    (hreads : next.world.ReadsAs journal.world)
    (hkept : ∀ a, (next.live a).destroyed = (journal.live a).destroyed)
    (hnonce : (next.live address).info.nonce = (journal.live address).info.nonce)
    (hcode : journal.world.codeFor (next.live address).info
      = journal.world.codeFor (journal.live address).info) :
    next.Hosts world address nonce code := by
  refine ⟨hreads.trans h.reads, fun a => (hkept a).trans (h.kept a), hnonce.trans h.nonce, ?_⟩
  rw [h.reads.codeFor, h.reads.codeFor, h.code] at hcode
  exact hcode

theorem of_funded (h : journal.Hosts world address nonce code) {next : Journal}
    (hreads : next.world.ReadsAs journal.world)
    (hfunded : ∀ a, (next.live a).Funded (journal.live a)) :
    next.Hosts world address nonce code := by
  refine h.of_live hreads (fun a => (hfunded a).destroyed_eq) (hfunded address).nonce_eq ?_
  rw [(hfunded address).eq]
  rfl

theorem load (h : journal.Hosts world address nonce code) (a : Address) :
    (journal.load a).2.Hosts world address nonce code := by
  have hview := journal.live_load a
  refine h.of_live (journal.readsAs_load a) (fun b => ?_) ?_ ?_
  all_goals rw [hview]

/-- Another account may become any that is not destroyed. -/
theorem put (h : journal.Hosts world address nonce code) {a : Address} {live : LiveAccount}
    (ha : address ≠ a) (hlive : live.destroyed = false) :
    (journal.put a live).Hosts world address nonce code := by
  refine h.of_live (.refl journal.world) (fun b => ?_) ?_ ?_
  · rw [live_put]
    split
    next => rw [hlive, h.kept]
    next => rfl
  all_goals rw [live_put, if_neg ha]

theorem loadCode (h : journal.Hosts world address nonce code) (a : Address) :
    (journal.loadCode a).1.destroyed = false
      ∧ (journal.loadCode a).2.2.Hosts world address nonce code := by
  obtain ⟨own, hown, hlive, hview⟩ := journal.live_loadCode a
  rw [hlive] at hview ⊢
  refine ⟨h.kept a, h.of_live (journal.readsAs_loadCode a) (fun b => ?_) ?_ ?_⟩
  · rw [hview]
    split
    next ha => rw [ha]
    next => rfl
  · rw [hview]
    split
    next ha => rw [ha]
    next => rfl
  · rw [hview]
    split
    next ha => rw [ha, hown]
    next => rfl

theorem loadCode_self (h : journal.Hosts world address nonce code) :
    (journal.loadCode address).2.1 = code := by
  rw [loadCode_code, h.reads.codeFor, h.code]

/-- An address with code of its own runs that code. -/
theorem codeToRun (h : journal.Hosts world address nonce code) (hcode : OwnCode code) :
    Frame.codeToRun journal address = (code, (journal.loadCode address).2.2) := by
  have hself := h.loadCode_self
  unfold Frame.codeToRun
  cases hload : journal.loadCode address with
  | mk live loaded =>
    rw [hload] at hself
    rw [← hself] at hcode ⊢
    simp only [hcode.delegate?]

theorem loadSlot (h : journal.Hosts world address nonce code) (a : Address) (slot : Word) :
    (journal.loadSlot a slot).2.2.Hosts world address nonce code := by
  have hview : ∀ b, ∃ slots, (journal.loadSlot a slot).2.2.live b
      = { journal.live b with slots := slots } := journal.live_loadSlot a slot
  refine h.of_live (journal.readsAs_loadSlot a slot) (fun b => ?_) ?_ ?_
  · obtain ⟨slots, hslots⟩ := hview b
    rw [hslots]
  all_goals
    obtain ⟨slots, hslots⟩ := hview address
    rw [hslots]

theorem announce (h : journal.Hosts world address nonce code) (item : Address × List Word) :
    (journal.announce item).Hosts world address nonce code := by
  unfold Journal.announce
  simp only
  have hloaded := h.load item.1
  generalize (journal.load item.1).2 = loaded at hloaded
  induction item.2 generalizing loaded with
  | nil => exact hloaded
  | cons slot rest ih => exact ih _ (hloaded.loadSlot item.1 slot)

theorem announceAll (h : journal.Hosts world address nonce code)
    (items : List (Address × List Word)) :
    (items.foldl Journal.announce journal).Hosts world address nonce code := by
  induction items generalizing journal with
  | nil => exact h
  | cons item rest ih => exact ih (h.announce item)

end Journal.Hosts

/-! ## Authorizations -/

namespace Mainnet

variable {world : World} {address : Address} {nonce : Nat} {code : Bytes}

/-- An address with code of its own authorizes no one. -/
theorem hosts_authorize (hcode : OwnCode code) {state : Nat × Journal}
    (h : state.2.Hosts world address nonce code) (chainId : Nat) (item : Authorization) :
    (authorize chainId state item).2.Hosts world address nonce code := by
  obtain ⟨existing, journal⟩ := state
  obtain ⟨hkept, hloaded⟩ := h.loadCode item.authority
  have hself : item.authority = address → (journal.loadCode item.authority).2.1 = code := by
    rintro rfl
    exact h.loadCode_self
  unfold authorize
  simp only
  split
  next => exact h
  next =>
    split
    next => exact h
    next =>
      split
      next => exact hloaded
      next hfree =>
        split
        next => exact hloaded
        next =>
          refine hloaded.put (fun hsame => hfree ?_) hkept
          rw [hself hsame.symm, hcode.delegate?, List.isEmpty_eq_false_iff.mpr hcode.ne_nil]
          rfl

theorem hosts_applyAuthorizations (hcode : OwnCode code) (config : Config)
    (tx : Transaction) {journal : Journal} (h : journal.Hosts world address nonce code) :
    (applyAuthorizations config tx journal).2.Hosts world address nonce code := by
  unfold applyAuthorizations
  split
  next =>
    generalize hstate : ((0, journal) : Nat × Journal) = state
    have hfirst : state.2.Hosts world address nonce code := hstate ▸ h
    clear hstate
    induction tx.authorizations generalizing state with
    | nil => exact hfirst
    | cons item rest ih => exact ih _ (hosts_authorize hcode hfirst config.chainId item)
  next => exact h

end Mainnet

/-! ## What the creation leaves -/

/-- A journal in which a creation that a contract asked for is done, and what the contract is
told of it: nothing, or the address of another account, which has the runtime. -/
structure Journal.Answered (creator child : Address) (runtime : Bytes) (answer : Word)
    (journal : Journal) : Prop where
  touched : (journal.live creator).touched = true
  kept : (journal.live creator).destroyed = false
  told : answer = 0 ∨ answer = .ofBytes child.bytes ∧ child ≠ creator
    ∧ (journal.live child).Deployed runtime

/-- A failed creation tells nothing and leaves its creator; one that succeeds leaves the
runtime at the address that it tells. -/
theorem Frame.answered_create (config : Config) (depth : Nat) (request : Journal.CreateRequest)
    {runtime : Bytes} (hcode : request.initCode = Assembly.deploy runtime)
    (hgas : request.gas ≤ maxUInt64) (host : Host)
    (htouched : (host.journal.live request.creator).touched = true)
    (hkept : ∀ a, (host.journal.live a).destroyed = false) :
    let created := create config (depth + 1) request host
    created.2.journal.Answered request.creator
      (request.address (host.journal.live request.creator).info.nonce) runtime
      created.1.pushed := by
  have hends := create_deployment config depth hcode hgas host
  have hbegins := host.journal.startCreation_from request
  intro created
  change Deployment runtime created.1 _ created.2.journal at hends
  generalize created.1 = result, created.2.journal = journal at hends ⊢
  generalize host.journal.startCreation request = start at hends hbegins
  have hnothing : result.address = none → result.pushed = 0 := by
    intro hnone
    rw [FrameResult.pushed, hnone]
    cases result.finish.isSuccess <;> rfl
  cases hends with
  | refused haddress =>
    cases hbegins with
    | refused hrefused =>
      obtain ⟨nonce, hlive⟩ := hrefused.live request.creator
      refine ⟨?_, ?_, .inl (hnothing haddress)⟩
      · rw [hlive, htouched]
      · rw [hlive, hkept]
  | @undone _ earlier next haddress _ =>
    cases hbegins with
    | started hbegun =>
      -- The accounts go back to those of the journal in which the nonce is counted up.
      obtain ⟨_, hrestored⟩ := next.restore_view earlier
      obtain ⟨slots, hslots⟩ := hrestored request.creator
      have hback : ({ next with accounts := earlier.accounts } : Journal).live request.creator
          = earlier.live request.creator :=
        Journal.live_congr rfl (hbegun.reads.trans hbegun.earlier_reads.symm)
      rw [hback, hbegun.earlier_live, if_pos rfl] at hslots
      refine ⟨?_, ?_, .inl (hnothing haddress)⟩
      · rw [hslots]
        exact htouched
      · rw [hslots]
        exact hkept _
  | @deployed address earlier next hfinish _ haddress =>
    cases hbegins with
    | started hbegun =>
      have hcreator := hbegun.live request.creator hbegun.address_ne.symm
      rw [hbegun.earlier_live, if_pos rfl] at hcreator
      have hsame : (next.update address fun live =>
          { live with info := live.info.withCode runtime }).live request.creator
            = next.live request.creator := by
        rw [Journal.live_update, if_neg hbegun.address_ne.symm]
      rw [← hbegun.address_eq]
      refine ⟨?_, ?_, .inr ⟨?_, hbegun.address_ne, hbegun.deployed (hkept address) runtime⟩⟩
      · rw [hsame]
        exact hcreator.touched htouched
      · rw [hsame, hcreator.destroyed_eq]
        exact hkept _
      · rw [FrameResult.pushed, hfinish, haddress]
        rfl

/-- A journal in which a contract has also written what it was told to its first slot. -/
structure Journal.Noted (creator child : Address) (runtime : Bytes) (answer : Word)
    (journal : Journal) : Prop extends Journal.Answered creator child runtime answer journal where
  slot : ∃ s, (journal.live creator).slots.get? 0 = some s ∧ s.present = answer

theorem Journal.Answered.note {creator child : Address} {runtime : Bytes} {answer : Word}
    {journal : Journal} (h : journal.Answered creator child runtime answer) :
    ((journal.loadSlot creator 0).2.2.writeSlot creator 0 answer).Noted creator child runtime
      answer := by
  obtain ⟨slots, s, hget, hpresent, hview⟩ := journal.live_writeSlot creator 0 answer
  have hcreator := hview creator
  rw [if_pos rfl] at hcreator
  refine ⟨⟨?_, ?_, ?_⟩, s, ?_, hpresent⟩
  · rw [hcreator, h.touched]
  · rw [hcreator, h.kept]
  · refine h.told.imp_right fun ⟨hanswer, hne, hdeployed⟩ => ⟨hanswer, hne, ?_⟩
    rw [hview, if_neg hne]
    exact hdeployed
  · rw [hcreator, hget]

theorem Journal.Noted.of_funded {creator child : Address} {runtime : Bytes} {answer : Word}
    {journal next : Journal} (hfunded : ∀ a, (next.live a).Funded (journal.live a))
    (h : journal.Noted creator child runtime answer) :
    next.Noted creator child runtime answer := by
  obtain ⟨s, hget, hpresent⟩ := h.slot
  refine ⟨⟨(hfunded _).touched h.touched, (hfunded _).destroyed_eq.trans h.kept, ?_⟩, s, ?_,
    hpresent⟩
  · exact h.told.imp_right fun ⟨hanswer, hne, hdeployed⟩ =>
      ⟨hanswer, hne, .of_funded (hfunded _) hdeployed⟩
  · rw [(hfunded _).slots_eq, hget]

/-- Written back, the slot names the contract and the contract has its runtime. -/
theorem World.commit_noted {world : World} {creator child : Address} {runtime : Bytes}
    {answer : Word} {journal : Journal} (h : journal.Noted creator child runtime answer) :
    let last := world.commit journal.accounts
    last.slot? creator 0 = some answer
      ∧ (answer = 0 ∨ answer = .ofBytes child.bytes
        ∧ last.code? child = if runtime = [] then none else some runtime) := by
  obtain ⟨s, hget, rfl⟩ := h.slot
  exact ⟨slot?_commit (Journal.get?_of_touched h.touched) h.touched h.kept hget,
    h.told.imp_right fun ⟨hanswer, _, hdeployed⟩ => ⟨hanswer, code?_commit hdeployed⟩⟩

/-! ## The call -/

/-- A call to a factory that succeeds leaves the creation done and noted. -/
theorem Frame.noted_call (config : Config) {world : World} {factory : Address} {nonce : Nat}
    {runtime : Bytes} {salt : Option Word} (host : Host)
    (h : host.journal.Hosts world factory nonce (Assembly.factory runtime salt))
    {caller : Address} (hne : caller ≠ factory) (value : Nat) {gas : Nat}
    (hgas : gas ≤ maxUInt64)
    (hsuccess : (call config caller factory value gas host).1.finish.isSuccess = true) :
    ∃ forwarded answer, (call config caller factory value gas host).2.journal.Noted factory
      (Journal.CreateRequest.address
        ⟨factory, 0, Assembly.deploy runtime, salt, forwarded⟩ nonce) runtime answer := by
  have hcode := Assembly.ownCode_factory runtime salt
  obtain ⟨hreads, hfunded, hpaid⟩ := host.journal.funded_transfer caller factory value
  have hmoved := h.of_funded hreads hfunded
  have hcounted : host.countCall.journal = host.journal := rfl
  unfold call at hsuccess ⊢
  simp only [hcounted] at hsuccess ⊢
  generalize host.journal.transfer caller factory value = moved at *
  obtain ⟨reason, moved⟩ := moved
  cases reason with
  | some reason => cases hsuccess
  | none =>
    have htouched := hpaid rfl hne
    have hloaded := (hmoved.loadCode factory).2
    obtain ⟨own, _, hlive, hview⟩ := moved.live_loadCode factory
    have hpresent := hview factory
    rw [if_pos rfl, hlive] at hpresent
    simp only [hmoved.codeToRun hcode, List.isEmpty_eq_false_iff.mpr hcode.ne_nil,
      Bool.false_eq_true, if_false] at hsuccess ⊢
    generalize (moved.loadCode factory).2.2 = loaded at hloaded hpresent hsuccess ⊢
    have hdepth : maxDepth - 1 = 1023 + 1 := rfl
    rw [hdepth] at hsuccess ⊢
    have hruns := @Machine.run_factory ⟨config, factory⟩ (create config (1023 + 1))
      { host.countCall with journal := loaded } gas hgas runtime salt
    generalize Machine.run _ _ _ _ _ = ended at hruns hsuccess ⊢
    obtain ⟨finish, output, m, left⟩ := ended
    simp only at hruns hsuccess ⊢
    obtain ⟨asked, forwarded, hjournal, hforwarded, hleft⟩ := hruns hsuccess
    have hanswered := Frame.answered_create config 1023
      ⟨factory, 0, Assembly.deploy runtime, salt, forwarded⟩ rfl hforwarded asked
    rw [hjournal, hpresent] at hanswered
    have hnoted := (hanswered htouched hloaded.kept).note
    rw [← hpresent, hloaded.nonce, ← hleft] at hnoted
    rw [if_pos hsuccess]
    exact ⟨forwarded, _, hnoted⟩

/-! ## The transaction -/

/-- A sender without fault has no code of its own. -/
theorem Validation.not_ownCode_of_senderFault {config : Config} {tx : Transaction}
    {sender : AccountInfo} {code : Bytes} (h : senderFault config tx sender code = none) : ¬OwnCode code := by
  intro hcode
  unfold senderFault at h
  rw [hcode.delegate?, List.isEmpty_eq_false_iff.mpr hcode.ne_nil] at h
  cases h

/-- When its first frame opens, a transaction has left an account with code of its own the nonce
and the code that it had, and is not sent by it. -/
theorem Mainnet.hosts_before (config : Config) (block : Block) {world : World} {tx : Transaction}
    {address : Address} {info : AccountInfo} (hinfo : (world.basic address).1 = some info)
    (hcode : OwnCode (world.codeFor info))
    (hsender : Validation.senderFault config tx (Journal.loadCode ⟨∅, world⟩ tx.caller).1.info
      (Journal.loadCode ⟨∅, world⟩ tx.caller).2.1 = none) :
    let loaded := Journal.loadCode ⟨∅, world⟩ tx.caller
    tx.caller ≠ address
      ∧ (opened config block tx loaded.1 loaded.2.2).2.Hosts world address info.nonce
          (world.codeFor info) := by
  have hstart := Journal.Hosts.start hinfo
  obtain ⟨hkept, hloaded⟩ := hstart.loadCode tx.caller
  have hne : tx.caller ≠ address := by
    rintro rfl
    rw [hstart.loadCode_self] at hsender
    exact Validation.not_ownCode_of_senderFault hsender hcode
  intro loaded
  have hpaid : (loaded.2.2.put tx.caller (payForGas block tx loaded.1)).Hosts world address
      info.nonce (world.codeFor info) := hloaded.put hne.symm hkept
  exact ⟨hne, hosts_applyAuthorizations hcode config tx (hpaid.announceAll tx.announced)⟩

theorem Mainnet.firstFrame_of_call {tx : Transaction} {target : Address}
    (h : tx.target = some target) (config : Config) (journal : Journal) :
    firstFrame config tx journal = Frame.call config tx.caller target tx.value
      (tx.gasLimit - Gas.intrinsic config.spec tx) ⟨journal, {}⟩ := by
  unfold firstFrame
  rw [h]

/-- **Creation through a factory works for every sender.**  Whatever the gate holds, if a call
to a factory goes through and is written back, the first slot of the factory holds zero or the
address of the contract that the factory was to create: the one of the factory's nonce, or of
the salt and the code that deploys the runtime.  If it is the address, the code there is the
runtime, byte for byte, and none if the runtime is empty. -/
theorem factory_names_what_it_creates (executor : Executor) {world : World} {factory : Address}
    {info : AccountInfo} (hinfo : (world.basic factory).1 = some info) {runtime : Bytes}
    {salt : Option Word} (hcode : world.codeFor info = Assembly.factory runtime salt)
    {tx : Transaction} (htarget : tx.target = some factory) (hgas : tx.gasLimit ≤ maxUInt64)
    {execution : Execution} {last : World}
    (hrun : (executor.transactCommit world tx).value = (.ok execution, last))
    {finish : Finish} {used refunded : Nat} {output : Bytes} {created : Option (Option Address)}
    (hsuccess : execution.result = .success finish used refunded output created) :
    let child := salt.elim (factory.created info.nonce) fun salt =>
      factory.createdSalted (FixedBytes.ofNat 32 salt.toNat) (keccak256 (Assembly.deploy runtime))
    ∃ noted, last.slot? factory 0 = some noted
      ∧ (noted = 0 ∨ noted = .ofBytes child.bytes
        ∧ last.code? child = if runtime = [] then none else some runtime) := by
  intro child
  obtain ⟨left, htransact, rfl⟩ := executor.transactCommit_eq_ok hrun
  obtain ⟨_, hmainnet⟩ := executor.transact_eq_ok htransact
  obtain ⟨hsender, hperform⟩ := Mainnet.transact_eq_ok hmainnet
  clear htransact hmainnet hrun
  have hfactory := Assembly.ownCode_factory runtime salt
  rw [← hcode] at hfactory
  obtain ⟨hne, hhosts⟩ :=
    Mainnet.hosts_before executor.config executor.block hinfo hfactory hsender
  rw [Mainnet.perform_eq, Mainnet.firstFrame_of_call htarget] at hperform
  generalize Mainnet.opened _ _ _ _ _ = opened at hperform hhosts
  have hleft := Nat.le_trans (Nat.sub_le tx.gasLimit (Gas.intrinsic executor.config.spec tx)) hgas
  generalize tx.gasLimit - Gas.intrinsic executor.config.spec tx = gas at hperform hleft
  rw [hcode] at hhosts
  have hnotes := Frame.noted_call executor.config ⟨opened.2, {}⟩ hhosts hne tx.value hleft
  generalize Frame.call _ _ _ _ _ _ = framed at hperform hnotes
  obtain ⟨rfl, rfl⟩ := Prod.mk.inj hperform
  obtain ⟨rfl, hsuccessful, _, _⟩ := Mainnet.resultOf_eq_success hsuccess
  obtain ⟨forwarded, noted, hnoted⟩ := hnotes hsuccessful
  have hchild : Journal.CreateRequest.address
      ⟨factory, 0, Assembly.deploy runtime, salt, forwarded⟩ info.nonce = child := by
    cases salt <;> rfl
  rw [hchild] at hnoted
  have hsettled := hnoted.of_funded (Mainnet.funded_distribute executor.block tx
    (Mainnet.settle executor.config.spec tx opened.1 framed.1) framed.2.journal)
  exact ⟨noted, World.commit_noted hsettled⟩

/-- Whether a transaction goes through and an account ends with something in a slot. -/
def Executor.fills (executor : Executor) (world : World) (tx : Transaction) (address : Address)
    (slot : Word) : Bool :=
  match (executor.transact world tx).value with
  | (.ok execution, _) =>
    execution.result.isSuccess && (execution.changes.get? address).any fun live =>
      live.touched && !live.destroyed && (live.slots.get? slot).any (·.present != 0)
  | (.error _, _) => false

theorem Executor.exists_of_fills {executor : Executor} {world : World} {tx : Transaction}
    {address : Address} {slot : Word} (h : executor.fills world tx address slot = true) :
    ∃ execution last finish used refunded output created value,
      (executor.transactCommit world tx).value = (.ok execution, last)
        ∧ execution.result = .success finish used refunded output created
        ∧ last.slot? address slot = some value ∧ value ≠ 0 := by
  unfold fills at h
  split at h
  next execution left hrun =>
    have hcommit : (executor.transactCommit world tx).value
        = (.ok execution, left.commit execution.changes) := by
      rw [transactCommit_value, hrun]
    simp only [Bool.and_eq_true, Option.any_eq_true, Bool.not_eq_true', bne_iff_ne] at h
    obtain ⟨hsuccess, live, hget, ⟨htouched, hkept⟩, s, hslot, hfilled⟩ := h
    obtain ⟨finish, used, refunded, output, created, hresult⟩ :=
      ExecutionResult.exists_of_isSuccess hsuccess
    exact ⟨execution, _, finish, used, refunded, output, created, s.present, hcommit, hresult,
      World.slot?_commit hget htouched hkept hslot, hfilled⟩
  next => cases h

/-- A sender whom nothing authorizes has two bytes deployed by a factory. -/
theorem factory_names_what_a_stranger_creates :
    let factory : Address := .repeated 20 7
    let info := AccountInfo.withCode {} (Assembly.factory [0x00, 0x01] none)
    let world := World.empty.withHeld factory { info := info }
    let executor : Executor := { gate := ⟨.memory ∅⟩ }
    let tx : Transaction := { caller := .repeated 20 1, target := some factory }
    ∃ execution last, (executor.transactCommit world tx).value = (.ok execution, last)
      ∧ last.slot? factory 0 = some (.ofBytes (factory.created 0).bytes)
      ∧ last.code? (factory.created 0) = some [0x00, 0x01] := by
  intro factory info world executor tx
  have hinfo : (world.basic factory).1 = some info := by
    rw [World.basic_eq, World.held_withHeld, if_pos rfl]
    rfl
  have hcode : world.codeFor info = Assembly.factory [0x00, 0x01] none := rfl
  have hgas : tx.gasLimit ≤ maxUInt64 := by decide
  have hfills : executor.fills world tx factory 0 = true := by decide +kernel
  obtain ⟨execution, last, _, _, _, _, _, value, hrun, hsuccess, hslot, hfilled⟩ :=
    Executor.exists_of_fills hfills
  obtain ⟨noted, hnoted, hzero | ⟨hnamed, hruntime⟩⟩ :=
    factory_names_what_it_creates executor hinfo hcode rfl hgas hrun hsuccess
  · rw [hnoted, hzero] at hslot
    exact absurd (Option.some.inj hslot).symm hfilled
  · rw [hnamed] at hnoted
    exact ⟨execution, last, hrun, hnoted, hruntime⟩

end CreationGate
