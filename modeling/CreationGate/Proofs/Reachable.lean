import CreationGate.Proofs.Admission
import CreationGate.Proofs.Commits
import CreationGate.Proofs.InStep
import CreationGate.Proofs.Steps

/-!
# Worlds that a history can leave

Worlds are made from the empty one by putting accounts in place, setting balances, reading,
running transactions and writing changes back (`World.Reachable`).  In each of them the code of
every account is stored, a known absence hides nothing, and zeros stand for no code
(`World.Coherent`): every step that makes a world preserves this, so it holds along every
history, and the steps of a session lead from such worlds to such worlds.
-/

namespace CreationGate

namespace World

/-- A world that hides nothing: code is at hand or stored, and what is absent is empty. -/
structure Coherent (world : World) : Prop where
  complete : world.Complete
  /-- Nothing is kept of an account that is known to be absent. -/
  absent : ∀ address, (world.held address).mark = .absent → (world.held address).info = {}
  /-- The digest of zeros stands for no code, as the one of the empty string does. -/
  zero : world.codes.get? (.repeated 32 0) = some []

/-! ## One step -/

namespace Coherent

variable {world : World}

theorem empty : Coherent .empty := by
  refine ⟨complete_empty, fun _ _ => rfl, ?_⟩
  simp only [World.empty, SortedMap.ofList, List.foldl_cons, List.foldl_nil,
    SortedMap.get?_insert, if_true]

theorem of_addsCopies {more : World} (hadds : more.AddsCopies world) (h : world.Coherent) :
    more.Coherent := by
  refine ⟨h.complete.of_addsCopies hadds, HidesNothing.of_addsCopies h.absent hadds, ?_⟩
  rw [hadds.codes]
  exact h.zero

theorem withHeld (h : world.Coherent) (address : Address) {held : HeldAccount}
    (hknows : world.Knows held.info) (habsent : held.mark = .absent → held.info = {}) :
    (world.withHeld address held).Coherent :=
  ⟨h.complete.withHeld address hknows, HidesNothing.withHeld h.absent address habsent, h.zero⟩

theorem setBalance (h : world.Coherent) (address : Address) (balance : Nat) :
    (world.setBalance address balance).Coherent := by
  have hknows := h.complete address
  rw [setBalance_eq]
  exact h.withHeld address hknows fun hmark => by cases hmark

theorem storeCode (h : world.Coherent) (info : AccountInfo) :
    (world.storeCode info).2.Coherent :=
  ⟨h.complete.storeCode info, HidesNothing.storeCode h.absent info,
    world.keepsCodes_storeCode info _ _ h.zero⟩

theorem putAccount (h : world.Coherent) (address : Address) {info : AccountInfo}
    (hinfo : world.Knows info) (slots : List (Word × Word)) :
    (world.putAccount address info slots).Coherent :=
  (h.storeCode info).withHeld address hinfo.storeCode fun hmark =>
    absurd hmark (AccountMark.present_ne _)

theorem codeOf (h : world.Coherent) (digest : Digest) : (world.codeOf digest).2.Coherent := by
  unfold World.codeOf
  cases hcode : world.codes.get? digest with
  | some code => exact h
  | none =>
    have hkeeps : ∀ d, world.codes.contains d →
        (world.codes.insert digest []).contains d := by
      intro d hd
      unfold SortedMap.contains at hd ⊢
      rw [SortedMap.get?_insert]
      split
      next => rfl
      next => exact hd
    refine ⟨fun a hnone => hkeeps _ (h.complete a hnone), h.absent, ?_⟩
    simp only [SortedMap.get?_insert]
    split
    next => rfl
    next => exact h.zero

theorem commitAccount (h : world.Coherent) (address : Address) {live : LiveAccount}
    (hlive : world.Knows live.info) : (world.commitAccount address live).Coherent := by
  rw [commitAccount_eq]
  split
  next => exact h
  next =>
    split
    next => exact h.withHeld address (knows_of_code rfl) fun _ => rfl
    next =>
      exact (h.storeCode live.info).withHeld address hlive.storeCode fun hmark =>
        absurd hmark (HeldAccount.mark_committed_ne _ _ live)

/-- Accounts whose code is at hand or stored may be written back. -/
theorem commit (h : world.Coherent) {changes : LiveAccounts}
    (hchanges : ∀ address live, changes.get? address = some live → world.Knows live.info) :
    (world.commit changes).Coherent := by
  have hentries : ∀ e ∈ changes.entries, world.Knows e.2.info := fun e he =>
    hchanges e.1 e.2 (SortedMap.get?_eq_some_iff.mpr he)
  unfold World.commit
  generalize changes.entries = entries at hentries
  clear hchanges
  induction entries generalizing world with
  | nil => exact h
  | cons e rest ih =>
    refine ih (h.commitAccount e.1 (hentries e List.mem_cons_self)) fun later hlater hnone => ?_
    exact contains_commitAccount e.1 e.2 (hentries later (List.mem_cons_of_mem e hlater) hnone)

end Coherent

/-! ## Histories -/

/-- A world that some history leaves.  Changes may be written back to any later world than the
one in which they were made, as long as no account comes with code that is nowhere. -/
inductive Reachable : World → Prop
  | empty : Reachable .empty
  | putAccount {world : World} (h : Reachable world) (address : Address) (info : AccountInfo)
      (slots : List (Word × Word)) (hinfo : world.Knows info) :
      Reachable (world.putAccount address info slots)
  | setBalance {world : World} (h : Reachable world) (address : Address) (balance : Nat) :
      Reachable (world.setBalance address balance)
  | basic {world : World} (h : Reachable world) (address : Address) :
      Reachable (world.basic address).2
  | codeOf {world : World} (h : Reachable world) (digest : Digest) :
      Reachable (world.codeOf digest).2
  | storage {world : World} (h : Reachable world) (address : Address) (slot : Word) :
      Reachable (world.storage address slot).2
  | run {world : World} (h : Reachable world) (executor : Executor) (tx : Transaction) :
      Reachable (executor.transact world tx).value.2
  | commit {world : World} (h : Reachable world) (changes : LiveAccounts)
      (hchanges : ∀ address live, changes.get? address = some live → world.Knows live.info) :
      Reachable (world.commit changes)

namespace Reachable

variable {world : World}

/-- By induction on the history. -/
theorem coherent (h : world.Reachable) : world.Coherent := by
  induction h with
  | empty => exact .empty
  | putAccount _ address info slots hinfo ih => exact ih.putAccount address hinfo slots
  | setBalance _ address balance ih => exact ih.setBalance address balance
  | @basic world _ address ih => exact ih.of_addsCopies (world.addsCopies_basic address)
  | codeOf _ digest ih => exact ih.codeOf digest
  | @storage world _ address slot ih =>
    exact ih.of_addsCopies (world.addsCopies_storage address slot)
  | run _ executor tx ih => exact ih.of_addsCopies (executor.addsCopies_transact tx ih.complete)
  | commit _ changes hchanges ih => exact ih.commit hchanges

/-- The changes of a transaction may be written back to the world that it leaves. -/
theorem knows_changes (h : world.Complete) (executor : Executor) (tx : Transaction)
    {execution : Execution} {left : World}
    (hrun : (executor.transact world tx).value = (.ok execution, left)) :
    left.AddsCopies world
      ∧ ∀ address live, execution.changes.get? address = some live → world.Knows live.info := by
  obtain ⟨outcome, world', reference, log, hw, _, hleft⟩ :=
    executor.transact_inStep tx (.start (.refl world) (.refl world) h)
  rw [hw] at hrun
  cases hrun
  refine ⟨hleft.adds.trans hleft.grown, fun address live hget => hleft.knows address live hget⟩

theorem transactCommit (h : world.Reachable) (executor : Executor) (tx : Transaction) :
    (executor.transactCommit world tx).value.2.Reachable := by
  have hleft := h.run executor tx
  rw [executor.transactCommit_value]
  cases hrun : (executor.transact world tx).value with
  | mk outcome left =>
    rw [hrun] at hleft
    cases outcome with
    | error e => exact hleft
    | ok execution =>
      obtain ⟨hadds, hknows⟩ := knows_changes h.coherent.complete executor tx hrun
      exact hleft.commit execution.changes fun address live hget =>
        (hadds.knows_iff live.info).mpr (hknows address live hget)

end Reachable

end World

/-! ## Sessions -/

namespace Session

theorem reachable_step (session : Session) (step : Step) (h : session.world.Reachable) :
    (session.step step).value.2.world.Reachable := by
  cases step with
  | setBalance address balance => exact h.setBalance address balance
  | run mode tx nonce =>
    rw [Session.step, world_run]
    cases mode with
    | commit => exact h.transactCommit session.executor _
    | dry => exact h.run session.executor _
    | inspect => exact h.run session.executor _
  | rebuild authority genesis => cases genesis <;> exact h
  | _ => exact h

/-- By induction on the steps: a session that begins with a reachable world, the empty one for
instance, never leaves the reachable worlds. -/
theorem reachable_steps (session : Session) (steps : List Step) (h : session.world.Reachable) :
    (session.steps steps).2.world.Reachable := by
  induction steps generalizing session with
  | nil => exact h
  | cons step rest ih => exact ih _ (session.reachable_step step h)

end Session

end CreationGate
