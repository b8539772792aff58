import CreationGate.Proofs.Admission
import CreationGate.Proofs.Copies
import CreationGate.Proofs.Steps

/-!
# Worlds without code

Where no account has code, a call runs no instruction: it moves value and touches accounts,
and whatever it loads is as the world reads it (`Journal.Bare`).  Writing such accounts back
brings no code and changes no slot, so only a creation or an authorization could, and a
denied creation never gets that far.
-/

namespace CreationGate

/-! ## Accounts and journals that bring nothing new -/

/-- An account of a transaction that has no code, was neither created nor destroyed, and shows
every slot as the world reads it. -/
structure LiveAccount.Bare (first : World) (address : Address) (live : LiveAccount) : Prop where
  created : live.created = false
  destroyed : live.destroyed = false
  code : first.codeFor live.info = []
  slots : ∀ slot s, live.slots.get? slot = some s →
    s.present = (first.storage address slot).1

/-- A journal all of whose accounts are bare, over a world that reads as a first one without
code. -/
structure Journal.Bare (first : World) (journal : Journal) : Prop where
  codeless : ∀ address, first.code? address = none
  world : journal.world.ReadsAs first
  accounts : ∀ address live, journal.accounts.get? address = some live →
    live.Bare first address

/-- Balance, nonce and the touch of a bare account are free. -/
theorem LiveAccount.Bare.withFunds {first : World} {address : Address} {live : LiveAccount}
    (h : live.Bare first address) (balance nonce : Nat) (touched : Bool) :
    LiveAccount.Bare first address { live with
      touched := touched
      info := { live.info with balance := balance, nonce := nonce } } :=
  ⟨h.created, h.destroyed, h.code, h.slots⟩

namespace Journal.Bare

variable {first : World} {journal : Journal} {address : Address}

theorem start (h : ∀ address, first.code? address = none) : Bare first ⟨∅, first⟩ :=
  ⟨h, .refl first, fun _ _ h => by cases h⟩

theorem put {live : LiveAccount} (h : Bare first journal) (hlive : live.Bare first address) :
    Bare first (journal.put address live) := by
  refine ⟨h.codeless, h.world, fun a l hget => ?_⟩
  rw [Journal.put, SortedMap.get?_insert] at hget
  split at hget
  next ha =>
    cases hget
    rw [ha]
    exact hlive
  next => exact h.accounts a l hget

/-- What is loaded from a world without code is bare. -/
theorem load (h : Bare first journal) (address : Address) :
    (journal.load address).1.Bare first address ∧ Bare first (journal.load address).2 := by
  unfold Journal.load
  split
  next live hget => exact ⟨h.accounts address live hget, h⟩
  next =>
    have hworld := (World.readsAs_basic journal.world address).trans h.world
    have hbasic := h.world.basic address
    cases hread : journal.world.basic address with
    | mk info? world =>
      rw [hread] at hworld hbasic
      have hnext : Bare first ⟨journal.accounts, world⟩ := ⟨h.codeless, hworld, h.accounts⟩
      cases info? with
      | none =>
        have hlive : LiveAccount.Bare first address { missing := true } :=
          ⟨rfl, rfl, rfl, fun _ _ h => by cases h⟩
        exact ⟨hlive, hnext.put hlive⟩
      | some info =>
        have hcode := World.codeFor_of_basic (h.codeless address) hbasic.symm
        have hlive : LiveAccount.Bare first address { info := info } :=
          ⟨rfl, rfl, hcode, fun _ _ h => by cases h⟩
        exact ⟨hlive, hnext.put hlive⟩

theorem update (h : Bare first journal) (address : Address) {f : LiveAccount → LiveAccount}
    (hf : ∀ live : LiveAccount, live.Bare first address → (f live).Bare first address) :
    Bare first (journal.update address f) :=
  (h.load address).2.put (hf _ (h.load address).1)

/-- In a world without code, the code that is loaded is empty. -/
theorem loadCode (h : Bare first journal) (address : Address) :
    (journal.loadCode address).1.Bare first address ∧ (journal.loadCode address).2.1 = []
      ∧ Bare first (journal.loadCode address).2.2 := by
  have hloaded := h.load address
  unfold Journal.loadCode
  cases hload : journal.load address with
  | mk live next =>
    rw [hload] at hloaded
    obtain ⟨hlive, hnext⟩ : live.Bare first address ∧ Bare first next := hloaded
    have hcode := hlive.code
    unfold World.codeFor at hcode
    cases hinfo : live.info.code with
    | some code =>
      rw [hinfo] at hcode
      simp only [hinfo]
      exact ⟨hlive, hcode, hnext⟩
    | none =>
      simp only [hinfo]
      split
      next => exact ⟨hlive, rfl, hnext⟩
      next =>
        -- The digest is looked up, and no account carries one that has code under it.
        rw [hinfo] at hcode
        have hempty : (next.world.codeOf live.info.codeHash).1 = [] :=
          (hnext.world.codeOf _).trans hcode
        have hloaded : LiveAccount.Bare first address { live with
            info := { live.info with
              code := some (next.world.codeOf live.info.codeHash).1 } } :=
          ⟨hlive.created, hlive.destroyed, hempty, hlive.slots⟩
        have hworld := (World.readsAs_codeOf next.world live.info.codeHash).trans hnext.world
        have hread : Bare first ⟨next.accounts, (next.world.codeOf live.info.codeHash).2⟩ :=
          ⟨h.codeless, hworld, hnext.accounts⟩
        exact ⟨hloaded, hempty, hread.put hloaded⟩

/-- A slot that is loaded shows what the world reads. -/
theorem loadSlot (h : Bare first journal)
    (address : Address) (slot : Word) : Bare first (journal.loadSlot address slot).2.2 := by
  have hloaded := h.load address
  unfold Journal.loadSlot
  cases hload : journal.load address with
  | mk live next =>
    rw [hload] at hloaded
    obtain ⟨hlive, hnext⟩ : live.Bare first address ∧ Bare first next := hloaded
    have hwarm : ∀ s : Slot, s.present = (first.storage address slot).1 →
        LiveAccount.Bare first address
          { live with slots := live.slots.insert slot { s with warm := true } } := by
      intro s hs
      refine ⟨hlive.created, hlive.destroyed, hlive.code, fun slot' s' hget => ?_⟩
      rw [SortedMap.get?_insert] at hget
      split at hget
      next heq =>
        cases hget
        rw [heq]
        exact hs
      next => exact hlive.slots slot' s' hget
    cases hslot : live.slots.get? slot with
    | some s =>
      simp only [hslot]
      exact hnext.put (hwarm s (hlive.slots slot s hslot))
    | none =>
      have hread : (if live.created then (0, next.world) else next.world.storage address slot)
          = next.world.storage address slot := if_neg (ne_true_of_eq_false hlive.created)
      simp only [hslot, hread]
      have hworld := (World.readsAs_storage next.world address slot).trans hnext.world
      have hafter : Bare first ⟨next.accounts, (next.world.storage address slot).2⟩ :=
        ⟨h.codeless, hworld, hnext.accounts⟩
      exact hafter.put (hwarm ⟨_, _, true⟩ (hnext.world.storage address slot))

theorem announce (h : Bare first journal)
    (item : Address × List Word) : Bare first (journal.announce item) := by
  unfold Journal.announce
  have hslots : ∀ (slots : List Word) (journal : Journal), Bare first journal →
      Bare first
        (slots.foldl (fun journal slot => (journal.loadSlot item.1 slot).2.2) journal) := by
    intro slots
    induction slots with
    | nil => intro journal h; exact h
    | cons slot rest ih => intro journal h; exact ih _ (h.loadSlot item.1 slot)
  exact hslots item.2 _ (h.load item.1).2

theorem announceAll (h : Bare first journal)
    (items : List (Address × List Word)) :
    Bare first (items.foldl Journal.announce journal) := by
  induction items generalizing journal with
  | nil => exact h
  | cons item rest ih => exact ih (h.announce item)

theorem touch (h : Bare first journal)
    (address : Address) : Bare first (journal.touch address) :=
  h.update address fun live hlive => hlive.withFunds live.info.balance live.info.nonce true

theorem credit (h : Bare first journal)
    (address : Address) (amount : Nat) : Bare first (journal.credit address amount) :=
  h.update address fun live hlive => hlive.withFunds _ live.info.nonce true

theorem transfer (h : Bare first journal)
    (caller target : Address) (value : Nat) :
    Bare first (journal.transfer caller target value).2 := by
  have hloaded := ((h.load caller).2.load target).2
  have hpaid := hloaded.update caller fun live hlive =>
    hlive.withFunds (live.info.balance - value) live.info.nonce true
  simp only [Journal.transfer]
  split
  next => exact hloaded
  next =>
    split
    next => exact hloaded
    next =>
      split
      next => exact hloaded.touch target
      next =>
        split
        next => exact hpaid.credit target value
        next => exact hpaid

theorem codeToRun (h : Bare first journal) (target : Address) :
    (Frame.codeToRun journal target).1 = [] ∧ Bare first (Frame.codeToRun journal target).2 := by
  obtain ⟨_, hcode, hnext⟩ := h.loadCode target
  unfold Frame.codeToRun
  simp only [hcode]
  exact ⟨rfl, hnext⟩

end Journal.Bare

/-! ## Transactions -/

/-- A call in a world without code runs no frame: it ends with its transfer. -/
theorem Frame.call_bare {first : World} {host : Host} (h : host.journal.Bare first)
    (config : Config) (caller target : Address) (value gas : Nat) :
    (Frame.call config caller target value gas host).2.journal.Bare first := by
  have htransfer := h.transfer caller target value
  unfold Frame.call
  cases hmoved : host.journal.transfer caller target value with
  | mk refused journal =>
    rw [hmoved] at htransfer
    cases refused with
    | some reason =>
      simp only [Host.countCall, hmoved]
      exact htransfer
    | none =>
      obtain ⟨hcode, hnext⟩ := Journal.Bare.codeToRun htransfer target
      simp only [Host.countCall, hmoved, hcode]
      exact hnext

namespace Mainnet

theorem applyAuthorizations_of_nil {tx : Transaction} (h : tx.authorizations = [])
    (config : Config) (journal : Journal) :
    applyAuthorizations config tx journal = (0, journal) := by
  unfold applyAuthorizations
  rw [h]
  split
  next => rfl
  next => rfl

theorem firstFrame_bare {first : World} {journal : Journal} {tx : Transaction}
    (h : journal.Bare first) (hcall : tx.isCreation = false) (config : Config) :
    (firstFrame config tx journal).2.journal.Bare first := by
  unfold firstFrame
  cases htarget : tx.target with
  | none =>
    rw [Transaction.isCreation, htarget] at hcall
    cases hcall
  | some target => exact Frame.call_bare h config tx.caller target tx.value _

theorem distribute_bare {first : World} {journal : Journal} (h : journal.Bare first)
    (block : Block) (tx : Transaction) (settlement : Settlement) :
    (distribute block tx settlement journal).Bare first :=
  (h.credit tx.caller _).credit block.beneficiary _

/-- A call without authorizations leaves bare accounts over a world that reads as before. -/
theorem perform_bare {first : World} {journal : Journal} {sender : LiveAccount}
    {tx : Transaction} (h : journal.Bare first) (hsender : sender.Bare first tx.caller)
    (hcall : tx.isCreation = false) (hauth : tx.authorizations = []) (config : Config)
    (block : Block) :
    Journal.Bare first ⟨(perform config block tx sender journal).1.changes,
      (perform config block tx sender journal).2⟩ := by
  have hpaid : (payForGas block tx sender).Bare first tx.caller := hsender.withFunds _ _ true
  have hannounced := (h.put hpaid).announceAll tx.announced
  unfold perform
  simp only [applyAuthorizations_of_nil hauth]
  exact distribute_bare (firstFrame_bare hannounced hcall config) block tx _

/-- What a transaction leaves in a world without code: a world that reads as before, and bare
accounts if it ran. -/
def LeavesBare (first : World) (left : Except ExecutionError Execution × World) : Prop :=
  left.2.ReadsAs first
    ∧ ∀ execution, left.1 = .ok execution → Journal.Bare first ⟨execution.changes, left.2⟩

theorem transact_leavesBare {first : World} {tx : Transaction}
    (hfirst : ∀ address, first.code? address = none) (hcall : tx.isCreation = false)
    (hauth : tx.authorizations = []) (config : Config) (block : Block) :
    LeavesBare first (transact config block first tx) := by
  obtain ⟨hsender, _, hloaded⟩ := (Journal.Bare.start hfirst).loadCode tx.caller
  rcases transact_cases config block first tx with
    ⟨e, _, _, heq⟩ | ⟨fault, _, _, heq⟩ | ⟨_, heq⟩
  · rw [heq]
    exact ⟨.refl first, fun _ hok => by cases hok⟩
  · rw [heq]
    exact ⟨hloaded.world, fun _ hok => by cases hok⟩
  · have hbare := perform_bare hloaded hsender hcall hauth config block
    rw [heq]
    refine ⟨hbare.world, fun execution hok => ?_⟩
    cases hok
    exact hbare

end Mainnet

/-- The same for a transaction through the gate, which may also be a creation if it is
denied. -/
theorem Executor.transact_leavesBare (executor : Executor) {first : World} {tx : Transaction}
    (hfirst : ∀ address, first.code? address = none)
    (hdenied : tx.isCreation = true →
      Account.ofAddress tx.caller ∉ executor.gate.registry.accounts)
    (hauth : tx.authorizations = []) :
    Mainnet.LeavesBare first (executor.transact first tx).value := by
  rcases executor.transact_cases first tx with ⟨e, _, heq⟩ | ⟨hpasses, heq⟩
  · rw [heq]
    exact ⟨.refl first, fun _ hok => by cases hok⟩
  · have hcall : tx.isCreation = false := by
      rw [← Bool.not_eq_true]
      exact fun hcreation => hpasses ⟨hcreation, hdenied hcreation⟩
    rw [heq]
    exact Mainnet.transact_leavesBare hfirst hcall hauth executor.config executor.block

/-! ## Writing back -/

/-- A world without code whose slots, and whose code by digest, read as those of a first
one. -/
structure World.CodeFree (first world : World) : Prop where
  code? : ∀ address, world.code? address = none
  codeOf : ∀ digest, (world.codeOf digest).1 = (first.codeOf digest).1
  storage : ∀ address slot, (world.storage address slot).1 = (first.storage address slot).1

namespace World.CodeFree

variable {first world : World}

theorem of_readsAs (h : world.ReadsAs first) (hfirst : ∀ address, first.code? address = none) :
    CodeFree first world :=
  ⟨fun address => h.code?_eq_none_iff.mpr (hfirst address), h.codeOf, h.storage⟩

theorem trans {w₁ w₂ w₃ : World} (h₁ : CodeFree w₁ w₂) (h₂ : CodeFree w₂ w₃) :
    CodeFree w₁ w₃ :=
  ⟨h₂.code?, fun d => (h₂.codeOf d).trans (h₁.codeOf d),
    fun a s => (h₂.storage a s).trans (h₁.storage a s)⟩

/-- Putting an account in place keeps a world code-free if the account has no code and its
slots read as before. -/
theorem withHeld (h : CodeFree first world) {address : Address} {held : HeldAccount}
    (hcode : world.codeFor held.info = [])
    (hslots : ∀ slot, (held.slots.get? slot).getD 0 = (world.storage address slot).1) :
    CodeFree first (world.withHeld address held) := by
  have hcodes : (world.withHeld address held).codes = world.codes := rfl
  refine ⟨fun a => ?_, fun d => ?_, fun a s => ?_⟩
  · rw [code?_eq_none_iff, codeFor_congr hcodes, held_withHeld]
    split
    next => exact hcode
    next => exact code?_eq_none_iff.mp (h.code? a)
  · rw [← h.codeOf, codeOf_value, codeOf_value, hcodes]
  · rw [← h.storage, storage_eq, held_withHeld]
    split
    next ha =>
      rw [ha]
      exact hslots s
    next => rw [storage_eq]

/-- Storing the code of an account that has none stores nothing. -/
theorem storeCode (h : CodeFree first world) {info : AccountInfo}
    (hcode : first.codeFor info = []) :
    (world.storeCode info).2 = world ∧ world.codeFor (world.storeCode info).1 = [] := by
  unfold World.storeCode
  cases hinfo : info.code with
  | some code =>
    have hempty : code = [] := by
      rw [codeFor, hinfo] at hcode
      exact hcode
    subst hempty
    exact ⟨rfl, rfl⟩
  | none =>
    refine ⟨rfl, ?_⟩
    rw [codeFor, hinfo] at hcode
    simp only [codeFor, Option.getD_none]
    split
    next => rw [codeOf_value, world.emptyCode]; rfl
    next => exact (h.codeOf _).trans hcode

theorem commitAccount (h : CodeFree first world) {address : Address} {live : LiveAccount}
    (hlive : live.Bare first address) : CodeFree first (world.commitAccount address live) := by
  rw [commitAccount_eq]
  split
  next => exact h
  next =>
    obtain ⟨hworld, hcode⟩ := h.storeCode hlive.code
    rw [if_neg (ne_true_of_eq_false hlive.destroyed), hworld]
    -- Slots that were not loaded stay as they were held, since the account was not created.
    have hkept : (if live.created then ∅ else (world.held address).slots)
        = (world.held address).slots := if_neg (ne_true_of_eq_false hlive.created)
    refine h.withHeld hcode fun slot => ?_
    simp only [HeldAccount.committed]
    rw [hkept, SortedMap.get?_extend, SortedMap.get?_mapValues]
    cases hslot : live.slots.get? slot with
    | some s =>
      rw [h.storage]
      exact hlive.slots slot s hslot
    | none =>
      rw [storage_eq]
      rfl

theorem commit (h : CodeFree first world) {changes : LiveAccounts}
    (hchanges : ∀ address live, changes.get? address = some live → live.Bare first address) :
    CodeFree first (world.commit changes) := by
  have hentries : ∀ e ∈ changes.entries, e.2.Bare first e.1 := fun e he =>
    hchanges e.1 e.2 (SortedMap.get?_eq_some_iff.mpr he)
  unfold World.commit
  generalize changes.entries = entries at hentries
  induction entries generalizing world with
  | nil => exact h
  | cons e rest ih =>
    exact ih (h.commitAccount (hentries e List.mem_cons_self)) fun later hlater =>
      hentries later (List.mem_cons_of_mem e hlater)

theorem setBalance (h : CodeFree first world) (address : Address) (balance : Nat) :
    CodeFree first (world.setBalance address balance) := by
  have hcode := code?_eq_none_iff.mp (h.code? address)
  rw [setBalance_eq]
  refine h.withHeld hcode fun slot => ?_
  rw [storage_eq]

end World.CodeFree

/-! ## Sessions -/

namespace Session

/-- Whether a step lets no code in: a transaction carries no authorizations and is a creation
only if its sender is not held. -/
def Closed (session : Session) : Step → Prop
  | .run _ tx _ => tx.authorizations = [] ∧ (tx.isCreation = true →
    Account.ofAddress tx.caller ∉ session.control.registry.accounts)
  | _ => True

theorem codeFree_run (session : Session) (mode : RunMode) {tx : Transaction}
    (hcode : ∀ address, session.world.code? address = none) (hauth : tx.authorizations = [])
    (hdenied : tx.isCreation = true →
      Account.ofAddress tx.caller ∉ session.control.registry.accounts) :
    session.world.CodeFree (session.run mode tx).value.2.world := by
  have hleft := session.executor.transact_leavesBare hcode hdenied hauth
  have hread := World.CodeFree.of_readsAs hleft.1 hcode
  rw [world_run]
  cases mode with
  | dry => exact hread
  | inspect => exact hread
  | commit =>
    simp only [Executor.transactCommit_value]
    cases hvalue : (session.executor.transact session.world tx).value with
    | mk outcome last =>
      rw [hvalue] at hleft hread
      cases outcome with
      | error e => exact hread
      | ok execution => exact hread.commit (hleft.2 execution rfl).accounts

theorem codeFree_step (session : Session) {step : Step} (hclosed : session.Closed step)
    (hcode : ∀ address, session.world.code? address = none) :
    session.world.CodeFree (session.step step).value.2.world := by
  have hsame := World.CodeFree.of_readsAs (.refl session.world) hcode
  cases step with
  | setBalance address balance => exact hsame.setBalance address balance
  | run mode tx nonce => exact session.codeFree_run mode hcode hclosed.1 hclosed.2
  | _ =>
    rw [world_step_of_idle]
    · exact hsame
    · intro address balance h
      cases h
    · intro mode tx nonce h
      cases h

theorem codeFree_steps (first : Session) {steps : List Step}
    (hclosed : ∀ before step after, steps = before ++ step :: after →
      (first.steps before).2.Closed step)
    (hcode : ∀ address, first.world.code? address = none) :
    first.world.CodeFree (first.steps steps).2.world := by
  induction steps generalizing first with
  | nil => exact .of_readsAs (.refl first.world) hcode
  | cons step rest ih =>
    have hstep := first.codeFree_step (hclosed [] step rest rfl) hcode
    refine hstep.trans (ih _ (fun before later after hrest => ?_) hstep.code?)
    exact hclosed (step :: before) later after (congrArg (step :: ·) hrest)

end Session

/-- **Code enters a code-free world through the gate only.**  From a session whose world has no
code, take any steps such that no transaction carries authorizations and every creation comes
from a sender that the registry does not hold at that moment (`Session.Closed`).  After each
of these steps the world still has no code, and every slot reads as at first. -/
theorem code_free_world_stays (first : Session) (steps : List Step)
    (hcode : ∀ address, first.world.code? address = none)
    (hclosed : ∀ before step after, steps = before ++ step :: after →
      (first.steps before).2.Closed step)
    (taken : List Step) (htaken : taken <+: steps) :
    let now := (first.steps taken).2
    (∀ address, now.world.code? address = none)
      ∧ ∀ address slot,
        (now.world.storage address slot).1 = (first.world.storage address slot).1 := by
  obtain ⟨rest, rfl⟩ := htaken
  have hfree : first.world.CodeFree (first.steps taken).2.world := by
    refine first.codeFree_steps (fun before step after h => ?_) hcode
    exact hclosed before step (after ++ rest) (by rw [h, List.append_assoc]; rfl)
  exact ⟨hfree.code?, hfree.storage⟩

/-- A committed call with value, and a committed creation by a sender that is not held. -/
theorem code_free_world_stays_after_denial :
    let first : Session := { control := ⟨.memory ∅, Authority.root, []⟩ }
    let call : Transaction := { caller := .zero, target := some (.repeated 20 1), value := 5 }
    let creation : Transaction := { caller := .zero, data := [0] }
    let steps : List Step :=
      [.setBalance .zero 9, .run .commit call none, .run .commit creation none]
    (∀ address, first.world.code? address = none)
      ∧ (∀ before step after, steps = before ++ step :: after →
        (first.steps before).2.Closed step)
      ∧ ∀ address, (first.steps steps).2.world.code? address = none := by
  intro first call creation steps
  have hcode : ∀ address, first.world.code? address = none := fun _ => rfl
  have hclosed : ∀ before step after, steps = before ++ step :: after →
      (first.steps before).2.Closed step := by
    intro before step after h
    simp only [steps] at h
    rcases before with _ | ⟨_, _ | ⟨_, _ | ⟨_, before⟩⟩⟩
    · cases h
      trivial
    · cases h
      exact ⟨rfl, fun hcreation => absurd hcreation Bool.false_ne_true⟩
    · cases h
      refine ⟨rfl, fun _ => ?_⟩
      have hcontrol : (first.steps [.setBalance .zero 9, .run .commit call none]).2.control
          = first.control := by
        rw [Session.steps, Session.steps, Session.steps, Session.control_step,
          Session.control_step]
        rfl
      rw [hcontrol]
      exact List.not_mem_nil
    · simp at h
  exact ⟨hcode, hclosed, (code_free_world_stays first steps hcode hclosed steps
    (List.prefix_refl steps)).1⟩

end CreationGate
