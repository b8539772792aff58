import CreationGate.Proofs.Commits
import CreationGate.Proofs.JournalView
import CreationGate.Proofs.ReadOnly

/-!
# Looking at a world and setting balances in it

A world can be looked at without being read.  The two could disagree in one way only: reading
says that there is no account where looking shows what is still kept of one.  No world that
arises from the empty one has such an account (`World.Arises.hidesNothing`): destroying an
account drops all of it, every other write makes the account present, and a transaction that
runs only reads (`World.KeptByReads.transact`).

For the same reason a balance can be set at an address whatever is known of it: the mark that
is lost says nothing about the slots that are kept, and an absent account that becomes present
is the empty one with that balance.
-/

namespace CreationGate

/-- Whether an error is that the nonce is too high or too low. -/
def ExecutionError.blamesNonce : ExecutionError → Bool
  | base (.nonceTooHigh _ _) => true
  | base (.nonceTooLow _ _) => true
  | _ => false

namespace World

/-! ## Looking and reading -/

namespace HidesNothing

variable {world : World}

/-- What was read was known to be absent or was copied as it is. -/
theorem keptByReads : KeptByReads HidesNothing where
  basic {world} address h := h.of_addsCopies (world.addsCopies_basic address)
  codeOf {world} digest h := by
    unfold World.codeOf
    split
    next => exact h
    next => exact h
  storage {world} address slot h := h.of_addsCopies (world.addsCopies_storage address slot)

/-- What is copied of an address is its account as it is read, or the empty one. -/
theorem info_eq (h : world.HidesNothing) (address : Address) :
    (world.held address).info = (world.basic address).1.getD {} := by
  rw [basic_eq, HeldAccount.info?]
  split
  next habsent => exact h address habsent
  next => rfl

/-- A field that is zero for the empty account shows as it is read. -/
theorem field_eq (h : world.HidesNothing) (address : Address) {field : AccountInfo → Nat}
    (hzero : field {} = 0) :
    field (world.held address).info = ((world.basic address).1.map field).getD 0 := by
  rw [h.info_eq]
  cases (world.basic address).1 with
  | none => exact hzero
  | some info => rfl

theorem nonce_eq (h : world.HidesNothing) (address : Address) :
    world.nonce address = ((world.basic address).1.map (·.nonce)).getD 0 := by
  rw [World.nonce_eq]
  exact h.field_eq address rfl

theorem balance_eq (h : world.HidesNothing) (address : Address) :
    world.balance address = ((world.basic address).1.map (·.balance)).getD 0 := by
  rw [World.balance_eq]
  exact h.field_eq address rfl

theorem code?_eq (h : world.HidesNothing) (address : Address) :
    world.code? address = ((world.basic address).1.map world.codeFor).filter (· ≠ []) := by
  rw [World.code?_eq, h.info_eq]
  cases (world.basic address).1 with
  | none => rfl
  | some info =>
    by_cases hcode : world.codeFor info = []
    · simp [hcode, Option.filter]
    · simp [hcode, Option.filter]

/-- The sender that a transaction loads has the nonce that shows. -/
theorem nonce_loadCode (h : world.HidesNothing) (caller : Address) :
    (Journal.loadCode ⟨∅, world⟩ caller).1.info.nonce = world.nonce caller := by
  obtain ⟨code, _, hlive, _⟩ := Journal.live_loadCode ⟨∅, world⟩ caller
  rw [hlive, Journal.live_start, h.nonce_eq]
  cases (world.basic caller).1 with
  | none => rfl
  | some info => rfl

end HidesNothing

/-! ## Histories -/

/-- A world that arises from the empty one by putting accounts in place, setting balances,
reading, running transactions and writing changes back.  Unlike in `World.Reachable`, accounts
and changes may come with code that is nowhere. -/
inductive Arises : World → Prop
  | empty : Arises .empty
  | putAccount {world : World} (h : Arises world) (address : Address) (info : AccountInfo)
      (slots : List (Word × Word)) : Arises (world.putAccount address info slots)
  | setBalance {world : World} (h : Arises world) (address : Address) (balance : Nat) :
      Arises (world.setBalance address balance)
  | basic {world : World} (h : Arises world) (address : Address) :
      Arises (world.basic address).2
  | codeOf {world : World} (h : Arises world) (digest : Digest) :
      Arises (world.codeOf digest).2
  | storage {world : World} (h : Arises world) (address : Address) (slot : Word) :
      Arises (world.storage address slot).2
  | run {world : World} (h : Arises world) (executor : Executor) (tx : Transaction) :
      Arises (executor.transact world tx).value.2
  | commit {world : World} (h : Arises world) (changes : LiveAccounts) :
      Arises (world.commit changes)

/-- By induction on the history. -/
theorem Arises.hidesNothing {world : World} (h : world.Arises) : world.HidesNothing := by
  have hreads := HidesNothing.keptByReads
  induction h with
  | empty => exact .empty
  | putAccount _ address info slots ih => exact ih.putAccount address info slots
  | setBalance _ address balance ih => exact ih.setBalance address balance
  | basic _ address ih => exact hreads.basic address ih
  | codeOf _ digest ih => exact hreads.codeOf digest ih
  | storage _ address slot ih => exact hreads.storage address slot ih
  | run _ executor tx ih => exact hreads.transact ih executor tx
  | commit _ changes ih => exact ih.commit changes

end World

/-! ## Transactions at the current nonce -/

/-- The nonce is compared with that of the sender only once the sender is loaded. -/
theorem ExecutionError.blamesNonce_of_not_needsSender {e : ExecutionError}
    (h : e.needsSender = false) : e.blamesNonce = false := by
  cases e with
  | base fault => cases fault <;> first | rfl | cases h
  | _ => rfl

theorem Validation.spares_nonce_of_senderFault {config : Config} {tx : Transaction}
    {sender : AccountInfo} {code : Bytes} (hnonce : sender.nonce = tx.nonce) {e : ExecutionError}
    (h : senderFault config tx sender code = some e) : e.blamesNonce = false := by
  have hblames : ∀ {condition : Bool} {fault : InvalidTransaction},
      faultIf condition fault = some e → e = .base fault := by
    intro condition fault hfault
    unfold faultIf at hfault
    split at hfault
    next => exact (Option.some.inj hfault).symm
    next => cases hfault
  have hcounted : (if config.checksNonce then
      faultIf (sender.nonce < tx.nonce) (.nonceTooHigh tx.nonce sender.nonce)
        <|> faultIf (tx.nonce < sender.nonce) (.nonceTooLow tx.nonce sender.nonce)
      else none) = none := by
    rw [hnonce, decide_eq_false (Nat.lt_irrefl _)]
    split <;> rfl
  unfold senderFault at h
  rw [hcounted] at h
  simp only [Option.orElse_eq_orElse, Option.orElse_eq_or, Option.or_eq_some_iff] at h
  rcases h with hcode | ⟨_, hnone | ⟨_, hoverflow | ⟨_, hfunds⟩⟩⟩
  · rw [hblames hcode]
    rfl
  · cases hnone
  · rw [hblames hoverflow]
    rfl
  · rw [hblames hfunds]
    rfl

theorem Mainnet.transact_spares_nonce {world : World} (hworld : world.HidesNothing)
    {config : Config} {block : Block} {tx : Transaction} (hnonce : tx.nonce = world.nonce tx.caller)
    {e : ExecutionError} (h : (transact config block world tx).1 = .error e) :
    e.blamesNonce = false := by
  rcases transact_cases config block world tx with
    ⟨found, hearly, _, heq⟩ | ⟨fault, _, hfault, heq⟩ | ⟨_, heq⟩
  · rw [heq] at h
    cases h
    exact ExecutionError.blamesNonce_of_not_needsSender hearly
  · have hsender := hworld.nonce_loadCode tx.caller
    rw [← hnonce] at hsender
    rw [heq] at h
    cases h
    exact Validation.spares_nonce_of_senderFault hsender hfault
  · rw [heq] at h
    cases h

/-- A transaction at the nonce of its sender is never turned away for its nonce. -/
theorem Executor.enter_spares_nonce {world : World} (hworld : world.HidesNothing)
    (executor : Executor) (mode : RunMode) {tx : Transaction}
    (hnonce : tx.nonce = world.nonce tx.caller) {e : ExecutionError}
    (h : (executor.enter mode world tx).outcome = .error e) : e.blamesNonce = false := by
  rcases executor.enter_cases mode world tx with ⟨found, hearly, heq⟩ | heq
  · rw [heq] at h
    cases h
    exact ExecutionError.blamesNonce_of_not_needsSender hearly
  · rw [heq] at h
    exact Mainnet.transact_spares_nonce hworld hnonce
      (congrArg Prod.fst (Mainnet.enter_of_error h))

/-- **Looking shows what reading answers.**  In every world that arises from the empty one, the
nonce, the balance and the slots that show at an address are those that are read there, where
what is absent counts as zero, and the code that shows is that of the account that is read, if
it is not empty.  So a transaction made at the nonce that shows, a creation or a call, is never
turned away for its nonce, however it is run. -/
theorem looking_agrees_with_reading {world : World} (h : world.Arises) (address : Address) :
    world.nonce address = ((world.basic address).1.map (·.nonce)).getD 0
      ∧ ((world.info? address).map (·.balance)).getD 0
        = ((world.basic address).1.map (·.balance)).getD 0
      ∧ world.code? address = ((world.basic address).1.map world.codeFor).filter (· ≠ [])
      ∧ (∀ slot, (world.slot? address slot).getD 0 = (world.storage address slot).1)
      ∧ ∀ (executor : Executor) (mode : RunMode) (e : ExecutionError),
        (∀ initCode,
          (executor.enter mode world (world.creationBy address initCode)).outcome = .error e →
            e.blamesNonce = false)
        ∧ ∀ target data,
          (executor.enter mode world (world.callBy address target data)).outcome = .error e →
            e.blamesNonce = false := by
  have hnothing := h.hidesNothing
  have hbalance : ((world.info? address).map (·.balance)).getD 0 = world.balance address := by
    unfold World.balance
    cases world.info? address <;> rfl
  refine ⟨hnothing.nonce_eq address, ?_, hnothing.code?_eq address, fun slot => ?_,
    fun executor mode e => ⟨fun initCode herror => ?_, fun target data herror => ?_⟩⟩
  · rw [hbalance]
    exact hnothing.balance_eq address
  · rw [World.slot?_getD, World.storage_eq]
  · exact executor.enter_spares_nonce hnothing mode rfl herror
  · exact executor.enter_spares_nonce hnothing mode rfl herror

/-- Nothing shows of an account that was destroyed, and its nonces are used from zero again. -/
theorem looking_at_destroyed_account :
    let address : Address := .zero
    let world := (World.empty.putAccount address { balance := 9, nonce := 4 } [(1, 6)]).commit
      (.ofList [(address, { touched := true, destroyed := true })])
    (world.basic address).1 = none ∧ world.nonce address = 0 ∧ world.code? address = none
      ∧ (world.storage address 1).1 = 0 := by
  intro address world
  have hworld : world.Arises := .commit (.putAccount .empty address _ _) _
  have hbasic : (world.basic address).1 = none := by decide +kernel
  have hslot : (world.slot? address 1).getD 0 = 0 := by decide +kernel
  obtain ⟨hnonce, _, hcode, hslots, _⟩ := looking_agrees_with_reading hworld address
  rw [hbasic] at hnonce hcode
  refine ⟨hbasic, hnonce, hcode, ?_⟩
  rw [← hslots]
  exact hslot

/-! ## Setting a balance -/

/-- A world that reads as another one apart from the balance of one account, which may have
been absent. -/
structure World.DiffersInBalance (after before : World) (address : Address) (balance : Nat) :
    Prop where
  basic : (after.basic address).1
    = some { (before.basic address).1.getD {} with balance := balance }
  others : ∀ a, a ≠ address → (after.basic a).1 = (before.basic a).1
  codeOf : ∀ digest, (after.codeOf digest).1 = (before.codeOf digest).1
  code? : ∀ a, after.code? a = before.code? a
  storage : ∀ a slot, (after.storage a slot).1 = (before.storage a slot).1

theorem World.HidesNothing.differsInBalance {world : World} (h : world.HidesNothing)
    (address : Address) (balance : Nat) :
    (world.setBalance address balance).DiffersInBalance world address balance := by
  have hheld : ∀ a, (world.setBalance address balance).held a
      = if a = address then { world.held address with
          info := { (world.held address).info with balance := balance }, mark := .loaded }
        else world.held a := by
    intro a
    rw [setBalance_eq, held_withHeld]
  have hcodes : (world.setBalance address balance).codes = world.codes := by
    rw [setBalance_eq]
    rfl
  refine ⟨?_, fun a ha => ?_, fun digest => ?_, fun a => ?_, fun a slot => ?_⟩
  · rw [basic_eq, hheld, if_pos rfl, ← h.info_eq]
    rfl
  · rw [basic_eq, basic_eq, hheld, if_neg ha]
  · rw [codeOf_value, codeOf_value, hcodes]
  · rw [World.code?_eq, World.code?_eq, codeFor_congr hcodes, hheld]
    split
    next ha =>
      rw [ha]
      rfl
    next => rfl
  · rw [storage_eq, storage_eq, hheld]
    split
    next ha => rw [ha]
    next => rfl

/-- The slots of an account that was written back: none if it was destroyed, and only its own if
it was created. -/
theorem World.storage_commit {world : World} {changes : LiveAccounts} {address : Address}
    {live : LiveAccount} (hget : changes.get? address = some live) (htouched : live.touched = true)
    (slot : Word) :
    ((world.commit changes).storage address slot).1
      = if live.destroyed then 0
        else ((live.slots.get? slot).map (·.present)).getD
          (if live.created then 0 else (world.storage address slot).1) := by
  rw [storage_eq, storage_eq, held_commit, hget]
  simp only
  rw [held_commitAccount, htouched]
  cases live.destroyed with
  | true => rfl
  | false =>
    simp only [Bool.not_true, Bool.false_eq_true, if_false, HeldAccount.committed,
      SortedMap.get?_extend, SortedMap.get?_mapValues]
    cases live.slots.get? slot with
    | some s => rfl
    | none =>
      cases live.created with
      | true => rfl
      | false => rfl

/-- **Setting a balance changes the balance and nothing else.**  In every world that arises
from the empty one, setting a balance at an address makes the account that was read there, or
the empty one if there was none, read with that balance, and everything else reads as before:
the other accounts, all code, and every slot of every account.  So the slots that an account
had before it was destroyed or created anew do not come back. -/
theorem setting_balance_changes_nothing_else {world : World} (h : world.Arises)
    (address : Address) (balance : Nat) :
    (world.setBalance address balance).DiffersInBalance world address balance
      ∧ ∀ (changes : LiveAccounts) (live : LiveAccount),
        changes.get? address = some live → live.touched = true →
        live.destroyed = true ∨ live.created = true → ∀ slot,
          (((world.commit changes).setBalance address balance).storage address slot).1
            = if live.destroyed then 0 else ((live.slots.get? slot).map (·.present)).getD 0 := by
  refine ⟨h.hidesNothing.differsInBalance address balance,
    fun changes live hget htouched hgone slot => ?_⟩
  have hcommitted := (h.commit changes).hidesNothing.differsInBalance address balance
  rw [hcommitted.storage, World.storage_commit hget htouched]
  rcases hgone with hdestroyed | hcreated
  · rw [hdestroyed]
    rfl
  · rw [hcreated]
    rfl

/-- A balance given to a destroyed account does not bring its slot or its nonce back. -/
theorem setting_balance_of_destroyed_account :
    let address : Address := .zero
    let before := World.empty.putAccount address { balance := 9, nonce := 4 } [(1, 6)]
    let changes : LiveAccounts := .ofList [(address, { touched := true, destroyed := true })]
    let after := (before.commit changes).setBalance address 5
    (before.storage address 1).1 = 6 ∧ (after.storage address 1).1 = 0
      ∧ (after.basic address).1 = some { balance := 5 } := by
  intro address before changes after
  have hbefore : before.Arises := .putAccount .empty address _ _
  have hget : changes.get? address = some { touched := true, destroyed := true } := rfl
  have hread : (before.storage address 1).1 = 6 := by decide +kernel
  have habsent : ((before.commit changes).basic address).1 = none := by decide +kernel
  have hslot := (setting_balance_changes_nothing_else hbefore address 5).2 changes _ hget rfl
    (.inl rfl) 1
  have hset := (setting_balance_changes_nothing_else (hbefore.commit changes) address 5).1.basic
  rw [habsent] at hset
  exact ⟨hread, hslot, hset⟩

end CreationGate
