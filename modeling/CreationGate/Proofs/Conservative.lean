import CreationGate.Proofs.Admission
import CreationGate.Session

/-!
# The gate adds nothing but denials

Running a transaction through the gate is compared with running it through no gate at all, for
all three ways of running it.  Between a fault of the environment, which comes first, and a
denial, which comes second, the two differ in the denials alone.
-/

namespace CreationGate

/-- What a transaction that was asked for leaves, in whichever way it is run. -/
structure Report where
  /-- What became of it. -/
  outcome : Except ExecutionError Execution
  /-- What happened on the way, if that is counted. -/
  tally : Option Tally
  /-- The world afterwards. -/
  world : World

namespace Report

/-- A transaction that does not run. -/
def failed (mode : RunMode) (e : ExecutionError) (world : World) : Report :=
  ⟨.error e, if mode = .inspect then some {} else none, world⟩

end Report

/-! ## The three ways -/

namespace Mainnet

/-- Runs a transaction without any gate and writes its changes to the world. -/
def transactCommit (config : Config) (block : Block) (world : World) (tx : Transaction) :
    Except ExecutionError Execution × World :=
  match transact config block world tx with
  | (.error e, world) => (.error e, world)
  | (.ok execution, world) => (.ok execution, world.commit execution.changes)

/-- Runs a transaction without any gate and counts what happens. -/
def inspect (config : Config) (block : Block) (world : World) (tx : Transaction) :
    (Except ExecutionError Execution × Tally) × World :=
  (Handler.mainnet.inspectRun config block world tx).value

theorem inspect_eq (config : Config) (block : Block) (world : World) (tx : Transaction) :
    inspect config block world tx
      = (((transact config block world tx).1,
          Handler.tally (transact config block world tx).1),
        (transact config block world tx).2) :=
  rfl

/-- Runs a transaction without any gate in one of the three ways. -/
def enter (config : Config) (block : Block) (mode : RunMode) (world : World)
    (tx : Transaction) : Report :=
  match mode with
  | .dry =>
    let (outcome, world) := transact config block world tx
    ⟨outcome, none, world⟩
  | .commit =>
    let (outcome, world) := transactCommit config block world tx
    ⟨outcome, none, world⟩
  | .inspect =>
    let ((outcome, tally), world) := inspect config block world tx
    ⟨outcome, some tally, world⟩

end Mainnet

namespace Executor

/-- Runs a transaction through the gate in one of the three ways. -/
def enter (executor : Executor) (mode : RunMode) (world : World) (tx : Transaction) : Report :=
  match mode with
  | .dry =>
    let (outcome, world) := (executor.transact world tx).value
    ⟨outcome, none, world⟩
  | .commit =>
    let (outcome, world) := (executor.transactCommit world tx).value
    ⟨outcome, none, world⟩
  | .inspect =>
    let ((outcome, tally), world) := (executor.inspect world tx).value
    ⟨outcome, some tally, world⟩

/-! ## Through the gate -/

variable {executor : Executor} {world : World} {tx : Transaction}

/-- A failure without the gate or at it is the same failure in each way of running. -/
theorem enter_of_error {e : ExecutionError}
    (h : (executor.transact world tx).value = (.error e, world)) (mode : RunMode) :
    executor.enter mode world tx = .failed mode e world := by
  cases mode with
  | dry => simp only [enter, h, Report.failed]; rfl
  | commit => simp only [enter, transactCommit_value, h, Report.failed]; rfl
  | inspect => simp only [enter, inspect_eq, Traced.value_bind, h, Report.failed]; rfl

/-- A run that is the same without the gate is the same in each way of running. -/
theorem enter_eq_mainnet
    (h : (executor.transact world tx).value
      = Mainnet.transact executor.config executor.block world tx) (mode : RunMode) :
    executor.enter mode world tx
      = Mainnet.enter executor.config executor.block mode world tx := by
  cases mode with
  | dry => simp only [enter, Mainnet.enter, h]
  | commit =>
    have hcommit : (executor.transactCommit world tx).value
        = Mainnet.transactCommit executor.config executor.block world tx := by
      rw [transactCommit_value, h]
      unfold Mainnet.transactCommit
      rcases Mainnet.transact executor.config executor.block world tx with ⟨e | execution, last⟩
      · rfl
      · rfl
    simp only [enter, Mainnet.enter, hcommit]
  | inspect =>
    simp only [enter, Mainnet.enter, Mainnet.inspect_eq, inspect_eq, Traced.value_bind, h]
    rfl

theorem enter_of_fault (executor : Executor) {e : ExecutionError}
    (h : Validation.environmentFault executor.config executor.block tx = some e)
    (mode : RunMode) : executor.enter mode world tx = .failed mode e world :=
  enter_of_error (transact_of_fault h) mode

theorem enter_of_denies (executor : Executor)
    (h : Validation.environmentFault executor.config executor.block tx = none)
    (hdenies : executor.gate.Denies tx) (mode : RunMode) :
    executor.enter mode world tx = .failed mode tx.denial world :=
  enter_of_error (transact_of_denies h hdenies) mode

theorem enter_of_passes (executor : Executor) (hdenies : ¬executor.gate.Denies tx)
    (mode : RunMode) :
    executor.enter mode world tx
      = Mainnet.enter executor.config executor.block mode world tx :=
  enter_eq_mainnet (transact_of_passes hdenies) mode

/-- However a transaction is run, it is turned away before its sender is looked at, or is run as
without a gate. -/
theorem enter_cases (executor : Executor) (mode : RunMode) (world : World) (tx : Transaction) :
    (∃ e, e.needsSender = false ∧ executor.enter mode world tx = .failed mode e world)
      ∨ executor.enter mode world tx
        = Mainnet.enter executor.config executor.block mode world tx := by
  rcases executor.transact_cases world tx with ⟨e, hearly, heq⟩ | ⟨_, heq⟩
  · exact .inl ⟨e, hearly, enter_of_error heq mode⟩
  · exact .inr (enter_eq_mainnet heq mode)

end Executor

/-- Without a gate, a failure is the same failure in each way of running, and leaves the same
world. -/
theorem Mainnet.enter_of_error {config : Config} {block : Block} {mode : RunMode}
    {world : World} {tx : Transaction} {e : ExecutionError}
    (h : (enter config block mode world tx).outcome = .error e) :
    transact config block world tx = (.error e, (enter config block mode world tx).world) := by
  cases htransact : transact config block world tx with
  | mk outcome last =>
    cases mode with
    | dry =>
      simp only [enter, htransact] at h ⊢
      rw [h]
    | inspect =>
      simp only [enter, inspect_eq, htransact] at h ⊢
      rw [h]
    | commit =>
      cases outcome with
      | error found =>
        simp only [enter, transactCommit, htransact] at h ⊢
        rw [h]
      | ok execution =>
        simp only [enter, transactCommit, htransact] at h
        cases h

/-- **The gate is a conservative extension.**  However a transaction is run through the gate,
a fault of the environment is its answer; otherwise, if the gate denies it, the denial is,
whatever else is wrong with it; otherwise it is run as without a gate.  Of all that the
registry holds only the sender of a creation matters, so a call, and whatever code does while
it runs, never depends on it.  A fault of the environment is either what the block lacks,
given as such, or one of the transaction. -/
theorem gated_run_extends_mainnet (executor : Executor) (mode : RunMode) (world : World)
    (tx : Transaction) :
    (∀ e, Validation.environmentFault executor.config executor.block tx = some e →
      executor.enter mode world tx = .failed mode e world
        ∧ (Validation.headerFault executor.config executor.block = some e
            ∧ (e = .randomnessNotSet ∨ e = .excessBlobGasNotSet)
          ∨ Validation.headerFault executor.config executor.block = none
            ∧ ∃ fault, e = .base fault))
      ∧ (Validation.environmentFault executor.config executor.block tx = none →
        executor.gate.Denies tx →
        executor.enter mode world tx
          = .failed mode (.unauthorizedDeployer tx.caller (Account.ofAddress tx.caller)) world)
      ∧ (Validation.environmentFault executor.config executor.block tx = none →
        ¬executor.gate.Denies tx →
        executor.enter mode world tx
            = Mainnet.enter executor.config executor.block mode world tx
          ∧ ∀ e, (executor.enter mode world tx).outcome = .error e → ∃ fault, e = .base fault)
      ∧ ∀ other : Gate,
        (tx.isCreation = true → (Account.ofAddress tx.caller ∈ other.registry.accounts
          ↔ Account.ofAddress tx.caller ∈ executor.gate.registry.accounts)) →
        { executor with gate := other }.enter mode world tx = executor.enter mode world tx := by
  refine ⟨?_, ?_, ?_, ?_⟩
  · intro e hfault
    refine ⟨executor.enter_of_fault hfault mode, ?_⟩
    rcases Validation.environmentFault_eq_some hfault with hheader | hbase
    · exact .inl ⟨hheader, Validation.headerFault_eq_some hheader⟩
    · exact .inr hbase
  · intro hfault hdenies
    exact executor.enter_of_denies hfault hdenies mode
  · intro hfault hdenies
    rw [executor.enter_of_passes hdenies mode]
    exact ⟨rfl, fun e herror =>
      Mainnet.transact_error hfault (congrArg Prod.fst (Mainnet.enter_of_error herror))⟩
  · intro other hsame
    have hdenies : other.Denies tx ↔ executor.gate.Denies tx :=
      and_congr_right fun hcreation => not_congr (hsame hcreation)
    -- In each of the three cases what is left depends on the gate through `Denies` alone.
    obtain ⟨gate, config, block⟩ := executor
    cases hfault : Validation.environmentFault config block tx with
    | some e =>
      rw [Executor.enter_of_fault ⟨gate, config, block⟩ hfault,
        Executor.enter_of_fault ⟨other, config, block⟩ hfault]
    | none =>
      by_cases hdenied : gate.Denies tx
      · rw [Executor.enter_of_denies ⟨gate, config, block⟩ hfault hdenied,
          Executor.enter_of_denies ⟨other, config, block⟩ hfault (hdenies.mpr hdenied)]
      · rw [Executor.enter_of_passes ⟨gate, config, block⟩ hdenied,
          Executor.enter_of_passes ⟨other, config, block⟩ (mt hdenies.mp hdenied)]

/-- A call runs alike through a gate that holds its sender and through one that does not. -/
theorem gated_call_ignores_registry :
    let tx : Transaction := { caller := .zero, target := some .zero }
    let held : Registry := .memory (.ofList [Account.ofAddress tx.caller])
    Executor.enter { gate := ⟨held⟩ } .commit .empty tx
      = Executor.enter { gate := ⟨.memory ∅⟩ } .commit .empty tx := by
  intro tx held
  exact (gated_run_extends_mainnet { gate := ⟨.memory ∅⟩ } .commit .empty tx).2.2.2 ⟨held⟩
    fun hcreation => absurd hcreation Bool.false_ne_true

/-- What a block lacks is not given as a fault of the transaction. -/
theorem header_fault_is_not_base :
    let executor : Executor :=
      { gate := ⟨.memory ∅⟩, block := { hasRandomness := false } }
    let tx : Transaction := { caller := .zero }
    Validation.environmentFault executor.config executor.block tx = some .randomnessNotSet
      ∧ ∀ fault, (executor.transact .empty tx).value.1 ≠ .error (.base fault) := by
  intro executor tx
  have hfault : Validation.environmentFault executor.config executor.block tx
      = some .randomnessNotSet := rfl
  refine ⟨hfault, fun fault h => ?_⟩
  rw [Executor.transact_of_fault hfault] at h
  cases h

end CreationGate
