import CreationGate.Proofs.AdmissionPaths
import CreationGate.Proofs.AuditTrail

/-!
# What is reported and what is so

The entries of a trace are written in four places: governance reports what it did and what it
refused, the gate each check, a genesis configuration what it seeds, and execution what it turns
away.  One equation says what each step reports (`Session.log_step`).  It ties every kind of
entry to the answer of its step and to the registry at that step, and by induction on the steps
it ties the trace of a run to the events that the run records.
-/

namespace CreationGate

/-! ## Kinds of entries -/

/-- The entry that reports an event. -/
def Event.entry : Event → LogEntry
  | authorized deployer => .deployerAuthorized deployer
  | revoked deployer => .deployerRevoked deployer

namespace LogEntry

/-- Whether governance reports what it did. -/
def isRecord (entry : LogEntry) : Bool := entry.source = .control ∧ entry.level = .info

/-- Whether governance warns. -/
def isRefusal (entry : LogEntry) : Bool := entry.source = .control ∧ entry.level = .warn

/-- Whether execution warns. -/
def isRejection (entry : LogEntry) : Bool := entry.source = .execution ∧ entry.level = .warn

def isCheck (entry : LogEntry) : Bool := entry.message = "Checked deployer"

theorem isCheck_deployerChecked (account : Account) (verdict : Verdict) :
    (deployerChecked account verdict).isCheck = true := by
  simp [isCheck, message]

theorem isCheck_creationRejected (caller : Address) (account : Account) :
    (creationRejected caller account).isCheck = false := by
  simp [isCheck, message]

end LogEntry

/-! ## What a step reports -/

/-- The verdict on an account, by whether it is a member. -/
def Registry.verdict (registry : Registry) (account : Account) : Verdict :=
  .ofBool (registry.members.contains account)

/-- The entry for a check of an account. -/
def Gate.checked (gate : Gate) (account : Account) : LogEntry :=
  .deployerChecked account (gate.registry.verdict account)

/-- What running a transaction reports: nothing unless it is a creation in which the checks of
the environment find no fault, and nothing of what its code does while it runs. -/
def Executor.reported (executor : Executor) (tx : Transaction) : List LogEntry :=
  let account := Account.ofAddress tx.caller
  if tx.isCreation ∧ Validation.environmentFault executor.config executor.block tx = none then
    match executor.gate.registry.verdict account with
    | .admitted => [.deployerChecked account .admitted]
    | .denied => [.deployerChecked account .denied, .creationRejected tx.caller account]
  else []

namespace Step

/-- What a step reports. -/
def reported (now : Session) : Step → List LogEntry
  | authorize origin deployer =>
    if now.control.authority origin then [.deployerAuthorized deployer] else [.callRejected origin]
  | revoke origin deployer =>
    if now.control.authority origin then [.deployerRevoked deployer] else [.callRejected origin]
  | check identity => [now.control.gate.checked identity]
  | checkAddress address => [now.control.gate.checked (Account.ofAddress address)]
  | ensureAddressOrigin address origin =>
    if origin = .signed (Account.ofAddress address) then
      [now.control.gate.checked (Account.ofAddress address)]
    else []
  | rebuild _ (some genesis) =>
    [.registrySeeded genesis.deployers.length genesis.addresses.length]
  | run _ tx _ => now.executor.reported tx
  | _ => []

end Step

/-! ## Each part of a step -/

theorem Gate.value_check (gate : Gate) (account : Account) :
    (gate.check account).value = gate.registry.verdict account := by
  have hcontains : gate.registry.contains account = gate.registry.members.contains account := by
    rw [Bool.eq_iff_iff, Registry.contains_iff, List.contains_iff_mem, Registry.mem_members]
  rw [Registry.verdict, ← hcontains]
  rfl

theorem Gate.log_check (gate : Gate) (account : Account) :
    (gate.check account).log = [gate.checked account] := by
  rw [checked, ← value_check]
  rfl

theorem Gate.log_ensureAddressOrigin (gate : Gate) (address : Address) (origin : Origin) :
    (gate.ensureAddressOrigin address origin).log
      = if origin = .signed (Account.ofAddress address) then
          [gate.checked (Account.ofAddress address)]
        else [] := by
  cases origin with
  | root => rfl
  | unsigned => rfl
  | signed signer =>
    simp only [ensureAddressOrigin, Origin.signer?, Origin.signed.injEq]
    split
    next =>
      rw [Traced.log_bind, log_check]
      cases (gate.check (Account.ofAddress address)).value with
      | admitted => rfl
      | denied => rfl
    next => rfl

namespace Executor

variable (executor : Executor) (world : World) (tx : Transaction)

theorem log_transact : (executor.transact world tx).log = executor.reported tx := by
  rw [transact, Handler.log_run, reported]
  simp only [Handler.deployment, Handler.mainnet]
  cases hfault : Validation.environmentFault executor.config executor.block tx with
  | some e => simp
  | none =>
    unfold Gate.enforce
    cases hcreation : tx.isCreation with
    | false => simp
    | true =>
      cases hverdict : executor.gate.registry.verdict (Account.ofAddress tx.caller) with
      | admitted => simp [Gate.value_check, Gate.log_check, Gate.checked, hverdict]
      | denied => simp [Gate.value_check, Gate.log_check, Gate.checked, hverdict]

/-- However a transaction is run, it reports the same. -/
theorem log_transactCommit : (executor.transactCommit world tx).log = executor.reported tx := by
  rw [transactCommit, Traced.log_bind, log_transact]
  rcases (executor.transact world tx).value with ⟨e | execution, last⟩
  · simp
  · simp

end Executor

theorem Session.log_run (session : Session) (mode : RunMode) (tx : Transaction) :
    (session.run mode tx).log = session.executor.reported tx := by
  cases mode with
  | dry => simp [run, Executor.log_transact]
  | commit => simp [run, Executor.log_transactCommit]
  | inspect => simp [run, Executor.inspect_eq, Executor.log_transact]

/-- What each step reports. -/
theorem Session.log_step (session : Session) (step : Step) :
    (session.step step).log = step.reported session := by
  cases step with
  | authorize origin deployer =>
    simp only [Session.step, dispatched, Control.authorize, Step.reported]
    split <;> rfl
  | revoke origin deployer =>
    simp only [Session.step, dispatched, Control.revoke, Step.reported]
    split <;> rfl
  | ensureAddressOrigin address origin =>
    simp only [Session.step, Traced.log_bind, Gate.log_ensureAddressOrigin, Step.reported]
    exact List.append_nil _
  | check account => exact session.control.gate.log_check account
  | checkAddress address => exact session.control.gate.log_check (Account.ofAddress address)
  | rebuild authority genesis => cases genesis <;> rfl
  | run mode tx nonce => exact session.log_run mode _
  | _ => rfl

/-! ## Answers -/

theorem Registry.verdict_eq_denied_iff {registry : Registry} {account : Account} :
    registry.verdict account = .denied ↔ account ∉ registry.accounts := by
  rw [verdict, ← mem_members, ← List.contains_iff_mem]
  cases registry.members.contains account with
  | true => exact iff_of_false Verdict.noConfusion (not_not_intro rfl)
  | false => exact iff_of_true rfl Bool.false_ne_true

namespace Executor

variable {executor : Executor} {tx : Transaction}

theorem filter_isCheck_reported (executor : Executor) (tx : Transaction) :
    (executor.reported tx).filter LogEntry.isCheck
      = if tx.isCreation
          ∧ Validation.environmentFault executor.config executor.block tx = none then
          [executor.gate.checked (Account.ofAddress tx.caller)]
        else [] := by
  unfold reported
  split
  next =>
    cases hverdict : executor.gate.registry.verdict (Account.ofAddress tx.caller) with
    | admitted => simp [Gate.checked, hverdict, LogEntry.isCheck_deployerChecked]
    | denied =>
      simp [Gate.checked, hverdict, LogEntry.isCheck_deployerChecked,
        LogEntry.isCheck_creationRejected]
  next => rfl

/-- A rejection is reported exactly where the gate denies the transaction. -/
theorem creationRejected_mem_reported {caller : Address} {account : Account} :
    .creationRejected caller account ∈ executor.reported tx
      ↔ Validation.environmentFault executor.config executor.block tx = none
        ∧ executor.gate.Denies tx ∧ caller = tx.caller
        ∧ account = Account.ofAddress tx.caller := by
  have hdenied : executor.gate.registry.verdict (Account.ofAddress tx.caller) = .denied
      ↔ Account.ofAddress tx.caller ∉ executor.gate.registry.accounts :=
    Registry.verdict_eq_denied_iff
  unfold reported Gate.Denies
  split
  next hasked =>
    cases hverdict : executor.gate.registry.verdict (Account.ofAddress tx.caller) with
    | admitted =>
      rw [hverdict] at hdenied
      simp [hasked, hverdict, ← hdenied]
    | denied =>
      rw [hverdict] at hdenied
      simp [hasked, hverdict, ← hdenied]
  next hidle =>
    refine iff_of_false List.not_mem_nil ?_
    rintro ⟨hfault, ⟨hcreation, _⟩, _⟩
    exact hidle ⟨hcreation, hfault⟩

end Executor

/-! ## One step -/

namespace Step

/-- The events that a step takes out of the log, to hand them out or with the old control. -/
def cleared (control : Control) : Step → List Event
  | takeEvents => control.events
  | rebuild _ _ => control.events
  | _ => []

/-- What a step takes out of the log and leaves in it is what was in it and what it records. -/
theorem cleared_append_events (step : Step) (control : Control) :
    step.cleared control ++ (step.onControl control).events
      = control.events ++ (step.event? control.authority).toList := by
  cases hrebuild : step.isRebuild with
  | false =>
    have hcleared : step.cleared control = step.batch control := by
      cases step with
      | rebuild authority genesis => cases hrebuild
      | _ => rfl
    rw [hcleared]
    exact batch_append_events hrebuild
  | true =>
    cases step with
    | rebuild authority genesis => cases genesis <;> simp [cleared, onControl, event?]
    | _ => cases hrebuild

/-- Governance reports exactly the event that a step records. -/
theorem filter_isRecord_reported (step : Step) (now : Session) :
    (step.reported now).filter LogEntry.isRecord
      = (step.event? now.control.authority).toList.map Event.entry := by
  cases step with
  | authorize origin deployer =>
    simp only [reported, event?]
    split <;> rfl
  | revoke origin deployer =>
    simp only [reported, event?]
    split <;> rfl
  | ensureAddressOrigin address origin =>
    simp only [reported, event?]
    split <;> rfl
  | rebuild authority genesis => cases genesis <;> rfl
  | run mode tx nonce =>
    simp only [reported, event?, Executor.reported]
    split
    next =>
      split
      next => rfl
      next => rfl
    next => rfl
  | _ => rfl

end Step

/-- What a step answers and reports is so in the session in which it is taken. -/
structure Step.Faithful (step : Step) (now : Session) (taken : Traced Answer) : Prop where
  /-- A refused call is reported with its origin, and nothing else is. -/
  refused : taken.value.outcome? = some (.error .badOrigin) →
    ∃ origin, step.origin? = some origin ∧ taken.log = [.callRejected origin]
  /-- Governance warns of nothing else. -/
  warned : taken.value.outcome? ≠ some (.error .badOrigin) →
    taken.log.filter LogEntry.isRefusal = []
  /-- A creation that passes the checks of the environment is checked once, and no other
  transaction is. -/
  checked : ∀ mode tx nonce, step = .run mode tx nonce →
    taken.log.filter LogEntry.isCheck
      = if tx.isCreation ∧ Validation.environmentFault now.config now.block
            (now.withNonce tx nonce) = none then
          [.deployerChecked (Account.ofAddress tx.caller)
            (now.control.registry.verdict (Account.ofAddress tx.caller))]
        else []
  /-- A denial is reported right after its check. -/
  denied : ∀ caller account, taken.value.denied? = some (caller, account) →
    taken.log = [.deployerChecked account .denied, .creationRejected caller account]
  /-- Execution warns of nothing else. -/
  rejected : taken.value.denied? = none → taken.log.filter LogEntry.isRejection = []
  /-- The account of an address is checked for an origin if it signed the call. -/
  asked : ∀ address origin, step = .ensureAddressOrigin address origin →
    taken.log
      = if origin = .signed (Account.ofAddress address) then
          [.deployerChecked (Account.ofAddress address)
            (now.control.registry.verdict (Account.ofAddress address))]
        else []
  /-- A genesis configuration is reported with the lengths of its two lists. -/
  seeded : ∀ authority genesis, step = .rebuild authority (some genesis) →
    taken.log = [.registrySeeded genesis.deployers.length genesis.addresses.length]

namespace Session

variable (now : Session) (step : Step)

theorem outcome?_eq_none (h : step.origin? = none) :
    (now.step step).value.1.outcome? = none := by
  cases step with
  | authorize origin deployer => cases h
  | revoke origin deployer => cases h
  | run mode tx nonce => cases mode <;> rfl
  | rebuild authority genesis => cases genesis <;> rfl
  | store =>
    simp only [Session.step, Traced.value_pure, stored]
    split <;> rfl
  | _ => rfl

theorem denied?_eq_none (h : ¬∃ mode tx nonce, step = .run mode tx nonce) :
    (now.step step).value.1.denied? = none := by
  cases step with
  | authorize origin deployer =>
    simp only [Session.step, dispatched, Control.authorize]
    split <;> rfl
  | revoke origin deployer =>
    simp only [Session.step, dispatched, Control.revoke]
    split <;> rfl
  | run mode tx nonce => exact absurd ⟨mode, tx, nonce, rfl⟩ h
  | rebuild authority genesis => cases genesis <;> rfl
  | store =>
    simp only [Session.step, Traced.value_pure, stored]
    split <;> rfl
  | _ => rfl

/-- A governance call reports that it was refused, or else the event that it records. -/
theorem reported_of_origin {origin : Origin} (h : step.origin? = some origin) :
    step.reported now
      = if now.control.authority origin then
          (step.event? now.control.authority).toList.map Event.entry
        else [.callRejected origin] := by
  cases step with
  | authorize found deployer =>
    cases h
    simp only [Step.reported, Step.event?]
    split <;> rfl
  | revoke found deployer =>
    cases h
    simp only [Step.reported, Step.event?]
    split <;> rfl
  | _ => cases h

theorem filter_isRefusal_reported (h : step.origin? = none) :
    (step.reported now).filter LogEntry.isRefusal = [] := by
  cases step with
  | authorize origin deployer => cases h
  | revoke origin deployer => cases h
  | ensureAddressOrigin address origin =>
    simp only [Step.reported]
    split <;> rfl
  | rebuild authority genesis => cases genesis <;> rfl
  | run mode tx nonce =>
    simp only [Step.reported, Executor.reported]
    split
    next => split <;> rfl
    next => rfl
  | _ => rfl

theorem filter_isRejection_reported (h : ¬∃ mode tx nonce, step = .run mode tx nonce) :
    (step.reported now).filter LogEntry.isRejection = [] := by
  cases step with
  | authorize origin deployer =>
    simp only [Step.reported]
    split <;> rfl
  | revoke origin deployer =>
    simp only [Step.reported]
    split <;> rfl
  | ensureAddressOrigin address origin =>
    simp only [Step.reported]
    split <;> rfl
  | rebuild authority genesis => cases genesis <;> rfl
  | run mode tx nonce => exact absurd ⟨mode, tx, nonce, rfl⟩ h
  | _ => rfl

/-- A transaction is denied as it is reported to be. -/
theorem denied?_run_iff_reported (mode : RunMode) (tx : Transaction) (caller : Address)
    (account : Account) :
    (now.run mode tx).value.1.denied? = some (caller, account)
      ↔ .creationRejected caller account ∈ now.executor.reported tx := by
  rw [denied?_run_eq_some, Executor.creationRejected_mem_reported]
  rfl

/-- A denied transaction reports its check, its rejection and nothing else. -/
theorem reported_of_denied (mode : RunMode) (tx : Transaction) {caller : Address}
    {account : Account} (h : (now.run mode tx).value.1.denied? = some (caller, account)) :
    now.executor.reported tx
      = [.deployerChecked account .denied, .creationRejected caller account] := by
  obtain ⟨hfault, hdenies, rfl, rfl⟩ := (now.denied?_run_eq_some mode tx caller account).mp h
  have hverdict : now.executor.gate.registry.verdict (Account.ofAddress tx.caller) = .denied :=
    Registry.verdict_eq_denied_iff.mpr hdenies.2
  unfold Executor.reported
  rw [if_pos ⟨hdenies.1, hfault⟩, hverdict]

theorem filter_isRejection_of_not_denied (mode : RunMode) (tx : Transaction)
    (h : (now.run mode tx).value.1.denied? = none) :
    (now.executor.reported tx).filter LogEntry.isRejection = [] := by
  rw [List.filter_eq_nil_iff]
  intro entry hentry hrejection
  cases entry with
  | creationRejected caller account =>
    rw [(now.denied?_run_iff_reported mode tx caller account).mpr hentry] at h
    cases h
  | _ => cases hrejection

/-- Every step is reported as it is. -/
theorem faithful_step : step.Faithful now ⟨(now.step step).value.1, (now.step step).log⟩ := by
  rw [log_step]
  refine ⟨fun h => ?_, fun h => ?_, ?_, ?_, fun h => ?_, ?_, ?_⟩
  · cases horigin : step.origin? with
    | none =>
      rw [now.outcome?_eq_none step horigin] at h
      cases h
    | some origin =>
      refine ⟨origin, rfl, ?_⟩
      rw [now.outcome?_step horigin] at h
      rw [now.reported_of_origin step horigin]
      cases hauthority : now.control.authority origin with
      | true =>
        rw [hauthority] at h
        cases h
      | false => rfl
  · cases horigin : step.origin? with
    | none => exact now.filter_isRefusal_reported step horigin
    | some origin =>
      rw [now.outcome?_step horigin] at h
      rw [now.reported_of_origin step horigin]
      cases hauthority : now.control.authority origin with
      | true =>
        cases step.event? now.control.authority with
        | none => rfl
        | some event => cases event <;> rfl
      | false =>
        rw [hauthority] at h
        exact absurd rfl h
  · rintro mode tx nonce rfl
    exact now.executor.filter_isCheck_reported tx
  · intro caller account h
    by_cases hrun : ∃ mode tx nonce, step = .run mode tx nonce
    · obtain ⟨mode, tx, nonce, rfl⟩ := hrun
      exact now.reported_of_denied mode (now.withNonce tx nonce) h
    · rw [now.denied?_eq_none step hrun] at h
      cases h
  · by_cases hrun : ∃ mode tx nonce, step = .run mode tx nonce
    · obtain ⟨mode, tx, nonce, rfl⟩ := hrun
      exact now.filter_isRejection_of_not_denied mode (now.withNonce tx nonce) h
    · exact now.filter_isRejection_reported step hrun
  · rintro address origin rfl
    rfl
  · rintro authority genesis rfl
    rfl

/-! ## Runs -/

/-- The events that a run records, in order. -/
def recorded (session : Session) : List Step → List Event
  | [] => []
  | step :: rest =>
    (step.event? session.control.authority).toList ++ (session.step step).value.2.recorded rest

/-- The events that a run takes out of the log, in order. -/
def cleared (session : Session) : List Step → List Event
  | [] => []
  | step :: rest => step.cleared session.control ++ (session.step step).value.2.cleared rest

/-- By induction on the steps. -/
theorem filter_isRecord_steps (first : Session) (steps : List Step) :
    ((first.steps steps).1.flatMap Traced.log).filter LogEntry.isRecord
      = (first.recorded steps).map Event.entry := by
  induction steps generalizing first with
  | nil => rfl
  | cons step rest ih =>
    rw [Session.steps, List.flatMap_cons, List.filter_append, ih, log_step,
      Step.filter_isRecord_reported, recorded, List.map_append]

/-- By induction on the steps: every recorded event is still in the log or was taken out of
it. -/
theorem cleared_append_events (first : Session) (steps : List Step) :
    first.cleared steps ++ (first.steps steps).2.control.events
      = first.control.events ++ first.recorded steps := by
  induction steps generalizing first with
  | nil => simp [cleared, recorded, Session.steps]
  | cons step rest ih =>
    have hrest := ih (first.step step).value.2
    have hstep := step.cleared_append_events first.control
    rw [control_step] at hrest
    rw [cleared, recorded, Session.steps, List.append_assoc, hrest, ← List.append_assoc, hstep,
      List.append_assoc]

end Session

/-- **The trace and the state never disagree.**  In every run, what governance reports that it
did is, entry by entry, what it recorded: all the events that were in the log at the end or had
been taken out of it, but for those of the first log.  Every step is reported as it is
(`Step.Faithful`): a refused call by one warning, a creation by one check with the verdict that
membership asks for, whatever its code goes on to create, and a denial right after its check.
Each time a genesis configuration is built the lengths of its lists are reported. -/
theorem trace_agrees_with_state (first : Session) (steps : List Step) :
    ((first.steps steps).1.flatMap Traced.log).filter LogEntry.isRecord
        = (first.recorded steps).map Event.entry
      ∧ first.cleared steps ++ (first.steps steps).2.control.events
        = first.control.events ++ first.recorded steps
      ∧ (∀ before step after, steps = before ++ step :: after →
          ∃ taken, (first.steps steps).1[before.length]? = some taken
            ∧ step.Faithful (first.steps before).2 taken)
      ∧ ∀ (registry : Registry) (authority : Authority) (genesis : Genesis),
        (Control.ofGenesis registry authority genesis).log
          = [.registrySeeded genesis.deployers.length genesis.addresses.length] := by
  refine ⟨first.filter_isRecord_steps steps, first.cleared_append_events steps, ?_, ?_⟩
  · rintro before step after rfl
    exact ⟨_, first.getElem?_steps before step after, (first.steps before).2.faithful_step step⟩
  · intro registry authority genesis
    rfl

/-- A run in which a call is refused, the log is drained between two accepted calls, and a
creation is denied. -/
theorem trace_of_drained_run :
    let deployer : Account := .repeated 32 7
    let tx : Transaction := { caller := .zero }
    let steps : List Step := [.authorize .unsigned deployer, .authorize .root deployer,
      .takeEvents, .revoke .root deployer, .run .commit tx none]
    let first : Session := { control := ⟨.stored ∅, Authority.root, []⟩ }
    ((first.steps steps).1.flatMap Traced.log).filter LogEntry.isRecord
        = [.deployerAuthorized deployer, .deployerRevoked deployer]
      ∧ ∃ taken, (first.steps steps).1[0]? = some taken
        ∧ taken.log = [.callRejected .unsigned] := by
  intro deployer tx steps first
  obtain ⟨hrecords, _, hfaithful, _⟩ := trace_agrees_with_state first steps
  obtain ⟨taken, hget, hstep⟩ := hfaithful [] _ _ rfl
  refine ⟨hrecords, taken, hget, ?_⟩
  have hrefused : taken.value.outcome? = some (.error .badOrigin) := by
    rw [← Option.some.inj hget]
    rfl
  obtain ⟨origin, horigin, hlog⟩ := hstep.refused hrefused
  cases horigin
  exact hlog

end CreationGate
