import CreationGate.Evm.Executor
import CreationGate.Proofs.Membership

/-!
# What a gated transaction meets

A transaction meets the checks of the environment first, then the gate (`Gate.Denies`), then
the checks of its price and of its sender.  Each way of running a transaction through the
gate has one equation for each of these outcomes.  No check but the gate gives the error of
the gate.
-/

namespace CreationGate

/-! ## What the checks find -/

/-- Whether a fault is one that only a look at the sender's account can find. -/
def InvalidTransaction.needsSender : InvalidTransaction → Bool
  | senderHasCode => true
  | nonceTooHigh _ _ => true
  | nonceTooLow _ _ => true
  | overflowPayment => true
  | lackOfFunds _ _ => true
  | _ => false

/-- Whether an error comes only after the sender's account was loaded. -/
def ExecutionError.needsSender : ExecutionError → Bool
  | base fault => fault.needsSender
  | _ => false

namespace Validation

/-- A check that finds nothing but faults of the transaction, all of them with or all of them
without a look at the sender. -/
def Finds (late : Bool) (found : Option ExecutionError) : Prop :=
  ∀ e, found = some e → ∃ fault, e = .base fault ∧ fault.needsSender = late

theorem finds_none (late : Bool) : Finds late none := by
  intro e h
  cases h

theorem finds_faultIf {late : Bool} (condition : Bool) {fault : InvalidTransaction}
    (hlate : fault.needsSender = late) : Finds late (faultIf condition fault) := by
  intro e h
  unfold faultIf at h
  split at h
  · exact ⟨fault, (Option.some.inj h).symm, hlate⟩
  · cases h

theorem finds_orElse {late : Bool} {first second : Option ExecutionError}
    (h₁ : Finds late first) (h₂ : Finds late second) : Finds late (first <|> second) := by
  cases first with
  | none => exact h₂
  | some e => exact h₁

theorem finds_chainFault (config : Config) (tx : Transaction) :
    Finds false (chainFault config tx) := by
  unfold chainFault
  split
  · split
    · exact finds_faultIf _ rfl
    · exact finds_faultIf _ rfl
  · exact finds_none false

theorem finds_dynamicPriceFault (block : Block) (tx : Transaction) :
    Finds false (dynamicPriceFault block tx) :=
  finds_orElse (finds_faultIf _ rfl) (finds_faultIf _ rfl)

theorem finds_blobFault (config : Config) (block : Block) (tx : Transaction) :
    Finds false (blobFault config block tx) := by
  refine finds_orElse (finds_faultIf _ rfl) (finds_orElse (finds_faultIf _ rfl)
    (finds_orElse (finds_faultIf _ rfl) ?_))
  split
  · exact finds_faultIf _ rfl
  · exact finds_none false

theorem finds_typeFault (config : Config) (block : Block) (tx : Transaction) :
    Finds false (typeFault config block tx) := by
  have hprice := finds_dynamicPriceFault block tx
  unfold typeFault
  split
  · exact finds_faultIf _ rfl
  · exact finds_faultIf _ rfl
  · exact hprice
  · exact finds_orElse (finds_faultIf _ rfl)
      (finds_orElse hprice (finds_blobFault config block tx))
  · exact finds_orElse (finds_faultIf _ rfl) (finds_orElse hprice (finds_faultIf _ rfl))
  · exact finds_none false

theorem finds_gasFault (spec : Spec) (tx : Transaction) : Finds false (gasFault spec tx) :=
  finds_orElse (finds_faultIf _ rfl) (finds_faultIf _ rfl)

theorem finds_senderFault (config : Config) (tx : Transaction) (sender : AccountInfo)
    (code : Bytes) : Finds true (senderFault config tx sender code) := by
  refine finds_orElse (finds_faultIf _ rfl) (finds_orElse ?_
    (finds_orElse (finds_faultIf _ rfl) (finds_faultIf _ rfl)))
  split
  · exact finds_orElse (finds_faultIf _ rfl) (finds_faultIf _ rfl)
  · exact finds_none true

/-- What a block lacks is its random value or its excess blob gas. -/
theorem headerFault_eq_some {config : Config} {block : Block} {e : ExecutionError}
    (h : headerFault config block = some e) :
    e = .randomnessNotSet ∨ e = .excessBlobGasNotSet := by
  unfold headerFault at h
  split at h
  · exact .inl (Option.some.inj h).symm
  · split at h
    · exact .inr (Option.some.inj h).symm
    · cases h

/-- Past what the block lacks, the checks of the environment find faults of the transaction. -/
theorem finds_environmentFault {config : Config} {block : Block} (tx : Transaction)
    (h : headerFault config block = none) : Finds false (environmentFault config block tx) := by
  unfold environmentFault
  rw [h]
  exact finds_orElse (finds_none false) (finds_orElse (finds_chainFault config tx)
    (finds_orElse (finds_faultIf _ rfl) (finds_orElse (finds_typeFault config block tx)
      (finds_orElse (finds_faultIf _ rfl) (finds_faultIf _ rfl)))))

/-- The first fault of the environment is what the block lacks, or one of the transaction. -/
theorem environmentFault_eq_some {config : Config} {block : Block} {tx : Transaction}
    {e : ExecutionError} (h : environmentFault config block tx = some e) :
    headerFault config block = some e
      ∨ headerFault config block = none ∧ ∃ fault, e = .base fault := by
  cases hheader : headerFault config block with
  | some found =>
    unfold environmentFault at h
    rw [hheader] at h
    exact .inl h
  | none =>
    obtain ⟨fault, hfault, _⟩ := finds_environmentFault tx hheader e h
    exact .inr ⟨rfl, fault, hfault⟩

/-- No fault of the environment takes a look at the sender. -/
theorem needsSender_of_environmentFault {config : Config} {block : Block} {tx : Transaction}
    {e : ExecutionError} (h : environmentFault config block tx = some e) :
    e.needsSender = false := by
  rcases environmentFault_eq_some h with hheader | ⟨hheader, _⟩
  · rcases headerFault_eq_some hheader with rfl | rfl
    · rfl
    · rfl
  · obtain ⟨fault, rfl, hearly⟩ := finds_environmentFault tx hheader e h
    exact hearly

/-- The checks of the environment do not look at the nonce. -/
theorem environmentFault_setNonce (config : Config) (block : Block) (tx : Transaction)
    (nonce : Nat) :
    environmentFault config block { tx with nonce := nonce } = environmentFault config block tx :=
  rfl

end Validation

/-- What `validate` finds without a gate takes no look at the sender.  It is a fault of the
environment, or one of the transaction. -/
theorem Handler.validate_mainnet_eq_some {config : Config} {block : Block} {tx : Transaction}
    {e : ExecutionError} (h : (mainnet.validate config block tx).value = some e) :
    e.needsSender = false
      ∧ (Validation.environmentFault config block tx = some e ∨ ∃ fault, e = .base fault) := by
  have hfirst : (Validation.environmentFault config block tx
      <|> Validation.gasFault config.spec tx) = some e := h
  simp only [Option.orElse_eq_orElse, Option.orElse_eq_or, Option.or_eq_some_iff] at hfirst
  rcases hfirst with hfault | ⟨_, hgas⟩
  · exact ⟨Validation.needsSender_of_environmentFault hfault, .inl hfault⟩
  · obtain ⟨fault, rfl, hearly⟩ := Validation.finds_gasFault config.spec tx e hgas
    exact ⟨hearly, .inr ⟨fault, rfl⟩⟩

/-- Without a gate, a transaction fails for the environment or its price, fails for its sender,
who has been loaded by then, or is performed. -/
theorem Mainnet.transact_cases (config : Config) (block : Block) (world : World)
    (tx : Transaction) :
    (∃ e, e.needsSender = false
          ∧ (Validation.environmentFault config block tx = some e ∨ ∃ fault, e = .base fault)
          ∧ transact config block world tx = (.error e, world))
      ∨ (∃ fault, fault.needsSender = true
          ∧ Validation.senderFault config tx (Journal.loadCode ⟨∅, world⟩ tx.caller).1.info
              (Journal.loadCode ⟨∅, world⟩ tx.caller).2.1 = some (.base fault)
          ∧ transact config block world tx
            = (.error (.base fault), (Journal.loadCode ⟨∅, world⟩ tx.caller).2.2.world))
      ∨ Validation.senderFault config tx (Journal.loadCode ⟨∅, world⟩ tx.caller).1.info
            (Journal.loadCode ⟨∅, world⟩ tx.caller).2.1 = none
          ∧ transact config block world tx
            = (.ok (perform config block tx (Journal.loadCode ⟨∅, world⟩ tx.caller).1
                (Journal.loadCode ⟨∅, world⟩ tx.caller).2.2).1,
              (perform config block tx (Journal.loadCode ⟨∅, world⟩ tx.caller).1
                (Journal.loadCode ⟨∅, world⟩ tx.caller).2.2).2) := by
  unfold transact
  cases hvalid : (Handler.mainnet.validate config block tx).value with
  | some e =>
    obtain ⟨hearly, hfound⟩ := Handler.validate_mainnet_eq_some hvalid
    rw [Handler.run_of_invalid hvalid]
    exact .inl ⟨e, hearly, hfound, rfl⟩
  | none =>
    rw [Handler.run_of_valid hvalid]
    refine .inr ?_
    unfold Handler.proceed
    split
    next sender code journal hload =>
      rw [hload]
      split
      next e hsender =>
        obtain ⟨fault, rfl, hlate⟩ := Validation.finds_senderFault _ _ _ _ e hsender
        exact .inl ⟨fault, hlate, hsender, rfl⟩
      next hsender => exact .inr ⟨hsender, rfl⟩

/-- Past the environment, a transaction without a gate fails for a fault of its own only. -/
theorem Mainnet.transact_error {config : Config} {block : Block} {world : World}
    {tx : Transaction} {e : ExecutionError}
    (hfault : Validation.environmentFault config block tx = none)
    (h : (transact config block world tx).1 = .error e) : ∃ fault, e = .base fault := by
  rcases transact_cases config block world tx with
    ⟨found, _, hfound | hbase, heq⟩ | ⟨fault, _, _, heq⟩ | ⟨_, heq⟩
  · rw [hfault] at hfound
    cases hfound
  · rw [heq] at h
    cases h
    exact hbase
  · rw [heq] at h
    exact ⟨fault, (Except.error.inj h).symm⟩
  · rw [heq] at h
    cases h

/-- A transaction that runs has a sender without fault, and is performed. -/
theorem Mainnet.transact_eq_ok {config : Config} {block : Block} {world last : World}
    {tx : Transaction} {execution : Execution}
    (h : transact config block world tx = (.ok execution, last)) :
    Validation.senderFault config tx (Journal.loadCode ⟨∅, world⟩ tx.caller).1.info
        (Journal.loadCode ⟨∅, world⟩ tx.caller).2.1 = none
      ∧ perform config block tx (Journal.loadCode ⟨∅, world⟩ tx.caller).1
          (Journal.loadCode ⟨∅, world⟩ tx.caller).2.2 = (execution, last) := by
  rcases transact_cases config block world tx with
    ⟨e, _, _, heq⟩ | ⟨fault, _, _, heq⟩ | ⟨hsender, heq⟩
  · rw [heq] at h
    cases h
  · rw [heq] at h
    cases h
  · rw [heq] at h
    cases h
    exact ⟨hsender, rfl⟩

/-! ## The gate -/

/-- Whether the gate turns a transaction away: it creates a contract, and the account of its
sender is not held. -/
def Gate.Denies (gate : Gate) (tx : Transaction) : Prop :=
  tx.isCreation = true ∧ Account.ofAddress tx.caller ∉ gate.registry.accounts

/-- The error that a transaction turned away gets. -/
def Transaction.denial (tx : Transaction) : ExecutionError :=
  .unauthorizedDeployer tx.caller (Account.ofAddress tx.caller)

namespace Gate

variable {gate : Gate} {tx : Transaction}

theorem enforce_of_denies (h : gate.Denies tx) : (gate.enforce tx).value = some tx.denial := by
  have hcontains : gate.registry.contains (Account.ofAddress tx.caller) = false := by
    rw [Bool.eq_false_iff, Ne, Registry.contains_iff]
    exact h.2
  unfold enforce
  rw [if_pos h.1]
  simp only [Gate.check, hcontains, Verdict.ofBool, Traced.value_bind, Traced.value_pure]
  rfl

theorem enforce_of_not_denies (h : ¬gate.Denies tx) : (gate.enforce tx).value = none := by
  unfold enforce
  split
  next hcreation =>
    have hheld : Account.ofAddress tx.caller ∈ gate.registry.accounts :=
      Classical.byContradiction fun hmissing => h ⟨hcreation, hmissing⟩
    rw [← Registry.contains_iff] at hheld
    simp only [Gate.check, hheld, Verdict.ofBool, Traced.value_bind, Traced.value_pure]
  next => rfl

end Gate

namespace Handler

variable {gate : Gate} {config : Config} {block : Block} {tx : Transaction}

theorem validate_of_fault {e : ExecutionError}
    (h : Validation.environmentFault config block tx = some e) :
    ((deployment gate).validate config block tx).value = some e := by
  simp only [deployment, mainnet, h, Traced.value_pure]

theorem validate_of_denies (h : Validation.environmentFault config block tx = none)
    (hdenies : gate.Denies tx) :
    ((deployment gate).validate config block tx).value = some tx.denial := by
  simp only [deployment, mainnet, h, Traced.value_bind, Gate.enforce_of_denies hdenies,
    Traced.value_pure]

/-- What the gate does not turn away is validated as without a gate. -/
theorem validate_of_passes (hdenies : ¬gate.Denies tx) :
    ((deployment gate).validate config block tx).value
      = (mainnet.validate config block tx).value := by
  cases h : Validation.environmentFault config block tx with
  | some e => simp only [deployment, mainnet, h, Traced.value_pure]; rfl
  | none =>
    simp only [deployment, mainnet, h, Traced.value_bind, Gate.enforce_of_not_denies hdenies,
      Traced.value_pure]
    rfl

end Handler

/-! ## Running through the gate -/

namespace Executor

variable {executor : Executor} {world : World} {tx : Transaction}

theorem transact_of_fault {e : ExecutionError}
    (h : Validation.environmentFault executor.config executor.block tx = some e) :
    (executor.transact world tx).value = (.error e, world) :=
  Handler.run_of_invalid (Handler.validate_of_fault h)

theorem transact_of_denies
    (h : Validation.environmentFault executor.config executor.block tx = none)
    (hdenies : executor.gate.Denies tx) :
    (executor.transact world tx).value = (.error tx.denial, world) :=
  Handler.run_of_invalid (Handler.validate_of_denies h hdenies)

/-- The two handlers share every stage but `validate`. -/
theorem transact_of_passes (hdenies : ¬executor.gate.Denies tx) :
    (executor.transact world tx).value
      = Mainnet.transact executor.config executor.block world tx :=
  Handler.run_congr rfl (Handler.validate_of_passes hdenies)

/-- A transaction is turned away before its sender is looked at, or is run as without a gate. -/
theorem transact_cases (executor : Executor) (world : World) (tx : Transaction) :
    (∃ e, e.needsSender = false ∧ (executor.transact world tx).value = (.error e, world))
      ∨ ¬executor.gate.Denies tx ∧ (executor.transact world tx).value
          = Mainnet.transact executor.config executor.block world tx := by
  cases hfault : Validation.environmentFault executor.config executor.block tx with
  | some e =>
    exact .inl ⟨e, Validation.needsSender_of_environmentFault hfault, transact_of_fault hfault⟩
  | none =>
    by_cases hdenies : executor.gate.Denies tx
    · exact .inl ⟨tx.denial, rfl, transact_of_denies hfault hdenies⟩
    · exact .inr ⟨hdenies, transact_of_passes hdenies⟩

/-- Committing writes what a run changes, and nothing if it fails. -/
theorem transactCommit_value :
    (executor.transactCommit world tx).value
      = match (executor.transact world tx).value with
        | (.error e, last) => (.error e, last)
        | (.ok execution, last) => (.ok execution, last.commit execution.changes) := by
  unfold transactCommit
  rw [Traced.value_bind]
  rcases (executor.transact world tx).value with ⟨e | execution, last⟩
  · rfl
  · rfl

/-- A transaction that runs was let through. -/
theorem transact_eq_ok {execution : Execution} {last : World}
    (h : (executor.transact world tx).value = (.ok execution, last)) :
    ¬executor.gate.Denies tx
      ∧ Mainnet.transact executor.config executor.block world tx = (.ok execution, last) := by
  rcases executor.transact_cases world tx with ⟨e, _, heq⟩ | ⟨hpasses, heq⟩
  · rw [heq] at h
    cases h
  · rw [heq] at h
    exact ⟨hpasses, h⟩

theorem transactCommit_eq_ok {execution : Execution} {last : World}
    (h : (executor.transactCommit world tx).value = (.ok execution, last)) :
    ∃ left, (executor.transact world tx).value = (.ok execution, left)
      ∧ last = left.commit execution.changes := by
  rw [transactCommit_value] at h
  rcases hrun : (executor.transact world tx).value with ⟨e | ran, left⟩
  · rw [hrun] at h
    cases h
  · rw [hrun] at h
    cases h
    exact ⟨left, rfl, rfl⟩

/-- **The gate alone denies, and only what passes the environment.** -/
theorem transact_eq_denial_iff (executor : Executor) (world : World) (tx : Transaction)
    (caller : Address) (account : Account) :
    (executor.transact world tx).value.1 = .error (.unauthorizedDeployer caller account)
      ↔ Validation.environmentFault executor.config executor.block tx = none
        ∧ executor.gate.Denies tx ∧ caller = tx.caller
        ∧ account = Account.ofAddress tx.caller := by
  cases h : Validation.environmentFault executor.config executor.block tx with
  | some e =>
    rw [transact_of_fault h]
    -- A fault of the environment is never the error of the gate.
    constructor
    · intro hdenial
      cases hdenial
      rcases Validation.environmentFault_eq_some h with hheader | ⟨_, fault, hfault⟩
      · rcases Validation.headerFault_eq_some hheader with hheader | hheader <;> cases hheader
      · cases hfault
    · rintro ⟨hnone, _⟩
      cases hnone
  | none =>
    by_cases hdenies : executor.gate.Denies tx
    · rw [transact_of_denies h hdenies]
      constructor
      · intro hdenial
        cases hdenial
        exact ⟨rfl, hdenies, rfl, rfl⟩
      · rintro ⟨_, _, rfl, rfl⟩
        rfl
    · rw [transact_of_passes hdenies]
      constructor
      · intro hdenial
        obtain ⟨fault, hfault⟩ := Mainnet.transact_error h hdenial
        cases hfault
      · rintro ⟨_, hdenied, _⟩
        exact absurd hdenied hdenies

end Executor

end CreationGate
