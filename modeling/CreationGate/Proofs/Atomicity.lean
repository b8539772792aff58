import CreationGate.Proofs.Conservative
import CreationGate.Proofs.Copies

/-!
# Transactions that fail

A transaction fails before anything is put in its journal, so all that a failure can leave is
a copy of the sender's account.  A fault of the environment, a denial and a fault of the price
come before the sender is loaded and leave the very same world.
-/

namespace CreationGate

/-! ## What loading leaves -/

namespace Journal

theorem readsAs_load (journal : Journal) (address : Address) :
    (journal.load address).2.world.ReadsAs journal.world := by
  unfold load
  split
  next => exact .refl journal.world
  next => exact World.readsAs_basic journal.world address

theorem readsAs_loadCode (journal : Journal) (address : Address) :
    (journal.loadCode address).2.2.world.ReadsAs journal.world := by
  have hload := journal.readsAs_load address
  unfold loadCode
  cases hnext : journal.load address with
  | mk live next =>
    rw [hnext] at hload
    cases hcode : live.info.code with
    | some code =>
      simp only [hcode]
      exact hload
    | none =>
      simp only [hcode]
      split
      next => exact hload
      next => exact (World.readsAs_codeOf next.world live.info.codeHash).trans hload

end Journal

/-! ## Without a gate -/

/-- Without a gate, only a fault of the sender leaves another world, and that one reads as the
world before. -/
theorem Mainnet.transact_world_of_error {config : Config} {block : Block} {world last : World}
    {tx : Transaction} {e : ExecutionError}
    (h : transact config block world tx = (.error e, last)) :
    last.ReadsAs world ∧ (e.needsSender = false → last = world) := by
  rcases transact_cases config block world tx with
    ⟨found, _, _, heq⟩ | ⟨fault, hlate, _, heq⟩ | ⟨_, heq⟩
  · rw [heq] at h
    cases h
    exact ⟨.refl _, fun _ => rfl⟩
  · rw [heq] at h
    cases h
    refine ⟨Journal.readsAs_loadCode ⟨∅, world⟩ tx.caller, fun hearly => ?_⟩
    have hfault : fault.needsSender = false := hearly
    rw [hlate] at hfault
    cases hfault
  · rw [heq] at h
    cases h

/-- **A transaction that fails leaves no trace.**  However a transaction is run, if it fails,
the world reads as before, so that no fee was taken and no nonce counted up.  If the error is
a fault of the environment or a denial, or any other that takes no look at the sender, the
world is the very same, copies included, and no account that was absent has become known. -/
theorem failed_run_is_atomic (executor : Executor) (mode : RunMode) (world : World)
    (tx : Transaction) {e : ExecutionError}
    (h : (executor.enter mode world tx).outcome = .error e) :
    (executor.enter mode world tx).world.ReadsAs world
      ∧ (Validation.environmentFault executor.config executor.block tx = some e →
        (executor.enter mode world tx).world = world)
      ∧ (∀ caller account, e = .unauthorizedDeployer caller account →
        (executor.enter mode world tx).world = world)
      ∧ (e.needsSender = false → (executor.enter mode world tx).world = world) := by
  have hatomic : (executor.enter mode world tx).world.ReadsAs world
      ∧ (e.needsSender = false → (executor.enter mode world tx).world = world) := by
    rcases executor.enter_cases mode world tx with ⟨found, _, heq⟩ | heq
    · rw [heq]
      exact ⟨.refl world, fun _ => rfl⟩
    · rw [heq] at h ⊢
      exact Mainnet.transact_world_of_error (Mainnet.enter_of_error h)
  obtain ⟨hreads, hsame⟩ := hatomic
  refine ⟨hreads, fun hfault => ?_, fun caller account he => ?_, hsame⟩
  · exact hsame (Validation.needsSender_of_environmentFault hfault)
  · subst he
    exact hsame rfl

/-- A call that an absent sender cannot pay for fails and leaves no trace. -/
theorem unfunded_call_is_atomic :
    let executor : Executor := { gate := ⟨.memory ∅⟩ }
    let tx : Transaction := { caller := .zero, target := some .zero, value := 5 }
    (executor.enter .commit .empty tx).outcome = .error (.base (.lackOfFunds 5 0))
      ∧ (executor.enter .commit .empty tx).world.ReadsAs .empty := by
  intro executor tx
  have hfails : (executor.enter .commit .empty tx).outcome
      = .error (.base (.lackOfFunds 5 0)) := by
    rfl
  exact ⟨hfails, (failed_run_is_atomic executor .commit .empty tx hfails).1⟩

end CreationGate
