import CreationGate.Proofs.Admission
import CreationGate.Proofs.Steps

/-!
# Denials and the history of governance

Who is authorized at a point of a session follows from what governance has ruled so far: the
last ruling on an account decides, and without one the first registry does
(`AuthorizedBy`).  Every kind of registry holds exactly the accounts so authorized, after
every history, and a creation is denied exactly when its sender is not.
-/

namespace CreationGate

/-! ## Rulings -/

/-- What governance can say of an account. -/
inductive Ruling where
  | granted
  | withdrawn
deriving DecidableEq

/-- Whether an account is authorized after a ruling; without one nothing changes. -/
def Ruling.decide (before : Prop) : Option Ruling → Prop
  | some granted => True
  | some withdrawn => False
  | none => before

namespace Step

/-- What a step rules on an account: an accepted call on it, or a genesis configuration that
lists it or an address that maps to it. -/
def ruling? (authority : Authority) (account : Account) : Step → Option Ruling
  | authorize origin deployer =>
    if authority origin ∧ deployer = account then some .granted else none
  | revoke origin deployer =>
    if authority origin ∧ deployer = account then some .withdrawn else none
  | rebuild _ (some genesis) =>
    if account ∈ genesis.deployers ∨ ∃ address ∈ genesis.addresses,
        Account.ofAddress address = account then some .granted
    else none
  | _ => none

/-- The authority after a step. -/
def onAuthority (step : Step) (authority : Authority) : Authority :=
  match step with
  | rebuild next _ => next
  | _ => authority

end Step

/-- The rulings of a history on an account, oldest first. -/
def rulings (account : Account) : Authority → List Step → List Ruling
  | _, [] => []
  | authority, step :: rest =>
    (step.ruling? authority account).toList ++ rulings account (step.onAuthority authority) rest

/-- Whether a history leaves an account authorized: its last ruling on the account grants, or
there is none and the account was held at first. -/
def AuthorizedBy (first : Control) (history : List Step) (account : Account) : Prop :=
  Ruling.decide (account ∈ first.registry.accounts)
    (rulings account first.authority history).getLast?

theorem Step.authority_onControl (step : Step) (control : Control) :
    (step.onControl control).authority = step.onAuthority control.authority := by
  cases step with
  | authorize origin deployer =>
    simp only [onControl]
    split <;> rfl
  | revoke origin deployer =>
    simp only [onControl]
    split <;> rfl
  | rebuild authority genesis => cases genesis <;> rfl
  | _ => rfl

/-- A genesis configuration lists an account if it lists it or an address that maps to it. -/
theorem Genesis.mem_accounts {genesis : Genesis} {account : Account} :
    account ∈ genesis.accounts ↔ account ∈ genesis.deployers
      ∨ ∃ address ∈ genesis.addresses, Account.ofAddress address = account := by
  rw [Genesis.accounts, List.mem_append, List.mem_map]

/-- One step changes who is held as it rules. -/
theorem Step.mem_accounts_onControl (step : Step) (control : Control) (account : Account) :
    account ∈ (step.onControl control).registry.accounts
      ↔ Ruling.decide (account ∈ control.registry.accounts)
        (step.ruling? control.authority account) := by
  cases step with
  | authorize origin deployer =>
    simp only [onControl, ruling?]
    by_cases horigin : control.authority origin = true
    · rw [if_pos horigin, Registry.accounts_insert, Set.mem_union, Set.mem_singleton_iff]
      by_cases hdeployer : deployer = account
      · rw [if_pos ⟨horigin, hdeployer⟩]
        exact iff_of_true (.inr hdeployer.symm) trivial
      · rw [if_neg fun h => hdeployer h.2]
        exact or_iff_left fun h => hdeployer h.symm
    · rw [if_neg horigin, if_neg fun h => horigin h.1]
      rfl
  | revoke origin deployer =>
    simp only [onControl, ruling?]
    by_cases horigin : control.authority origin = true
    · rw [if_pos horigin, Registry.accounts_remove, Set.mem_sdiff, Set.mem_singleton_iff]
      by_cases hdeployer : deployer = account
      · rw [if_pos ⟨horigin, hdeployer⟩]
        exact iff_of_false (fun h => h.2 hdeployer.symm) id
      · rw [if_neg fun h => hdeployer h.2]
        exact and_iff_left fun h => hdeployer h.symm
    · rw [if_neg horigin, if_neg fun h => horigin h.1]
      rfl
  | rebuild authority genesis =>
    cases genesis with
    | none => rfl
    | some genesis =>
      simp only [onControl, ruling?]
      rw [Registry.mem_accounts_insertAll, Genesis.mem_accounts]
      by_cases hlisted : account ∈ genesis.deployers
          ∨ ∃ address ∈ genesis.addresses, Account.ofAddress address = account
      · rw [if_pos hlisted]
        exact iff_of_true (.inl hlisted) trivial
      · rw [if_neg hlisted]
        exact or_iff_right hlisted
  | _ => rfl

/-- Of two rulings the later one decides. -/
theorem Ruling.decide_or (before : Prop) (earlier later : Option Ruling) :
    decide before (later.or earlier) = decide (decide before earlier) later := by
  cases later with
  | none => rfl
  | some ruling => cases ruling <;> rfl

/-- The ruling of the first step is the oldest, so it is the last one only where no later one
is. -/
theorem getLast?_rulings_cons (account : Account) (authority : Authority) (step : Step)
    (rest : List Step) :
    (rulings account authority (step :: rest)).getLast?
      = (rulings account (step.onAuthority authority) rest).getLast?.or
        (step.ruling? authority account) := by
  rw [rulings, List.getLast?_append]
  cases step.ruling? authority account <;> rfl

/-- After every history the registry holds exactly the accounts that the history leaves
authorized. -/
theorem Session.mem_accounts_steps (first : Session) (history : List Step)
    (account : Account) :
    account ∈ (first.steps history).2.control.registry.accounts
      ↔ AuthorizedBy first.control history account := by
  induction history generalizing first with
  | nil => rfl
  | cons step rest ih =>
    rw [Session.steps, ih, AuthorizedBy, AuthorizedBy, getLast?_rulings_cons, Ruling.decide_or,
      control_step, Step.authority_onControl, step.mem_accounts_onControl]

/-! ## Denials -/

/-- The sender and the account that an error of the gate names. -/
def ExecutionError.denied? : ExecutionError → Option (Address × Account)
  | unauthorizedDeployer caller account => some (caller, account)
  | _ => none

/-- The sender and the account that an answer turns away at the gate. -/
def Answer.denied? : Answer → Option (Address × Account)
  | ran (.error e) _ => e.denied?
  | _ => none

theorem ExecutionError.denied?_eq_some {e : ExecutionError} {caller : Address}
    {deployer : Account} :
    e.denied? = some (caller, deployer) ↔ e = .unauthorizedDeployer caller deployer := by
  constructor
  · intro h
    cases e with
    | unauthorizedDeployer c a => cases h; rfl
    | _ => cases h
  · rintro rfl
    rfl

namespace Session

/-- However a transaction is run, its answer is denied as the executor denies it. -/
theorem denied?_run (session : Session) (mode : RunMode) (tx : Transaction) :
    (session.run mode tx).value.1.denied?
      = match (session.executor.transact session.world tx).value.1 with
        | .error e => e.denied?
        | .ok _ => none := by
  cases mode with
  | dry =>
    simp only [run, Traced.value_bind, Traced.value_pure, outcome]
    rcases (session.executor.transact session.world tx).value with ⟨e | execution, last⟩
    · rfl
    · rfl
  | inspect =>
    simp only [run, Executor.inspect_eq, Traced.value_bind, Traced.value_pure, outcome]
    rcases (session.executor.transact session.world tx).value with ⟨e | execution, last⟩
    · rfl
    · rfl
  | commit =>
    simp only [run, Traced.value_bind, Traced.value_pure, Executor.transactCommit_value]
    rcases (session.executor.transact session.world tx).value with ⟨e | execution, last⟩
    · rfl
    · rfl

theorem denied?_run_eq_some (session : Session) (mode : RunMode) (tx : Transaction)
    (caller : Address) (deployer : Account) :
    (session.run mode tx).value.1.denied? = some (caller, deployer)
      ↔ Validation.environmentFault session.config session.block tx = none
        ∧ session.control.gate.Denies tx ∧ caller = tx.caller
        ∧ deployer = Account.ofAddress tx.caller := by
  rw [denied?_run]
  refine Iff.trans ?_
    (session.executor.transact_eq_denial_iff session.world tx caller deployer)
  cases (session.executor.transact session.world tx).value.1 with
  | ok execution => exact iff_of_false (fun h => by cases h) fun h => by cases h
  | error e =>
    rw [ExecutionError.denied?_eq_some]
    constructor
    · rintro rfl
      rfl
    · exact Except.error.inj

end Session

/-! ## What a denial depends on -/

namespace Step

/-- Whether a step can bear on denials: an accepted governance call, a rebuild, and a change
of the settings. -/
def governs (authority : Authority) : Step → Bool
  | authorize origin _ => authority origin
  | revoke origin _ => authority origin
  | rebuild _ _ => true
  | setConfig _ => true
  | setBlock _ => true
  | _ => false

/-- The registry after a step follows from the registry and the authority before it. -/
theorem registry_onControl_congr (step : Step) {c d : Control}
    (hregistry : c.registry = d.registry) (hauthority : c.authority = d.authority) :
    (step.onControl c).registry = (step.onControl d).registry := by
  cases step with
  | authorize origin deployer =>
    simp only [onControl, hauthority]
    split
    · rw [hregistry]
    · exact hregistry
  | revoke origin deployer =>
    simp only [onControl, hauthority]
    split
    · rw [hregistry]
    · exact hregistry
  | rebuild authority genesis =>
    cases genesis with
    | none => exact hregistry
    | some genesis => exact congrArg (Registry.insertAll genesis.accounts) hregistry
  | _ => exact hregistry

theorem registry_onControl_of_not_governs {step : Step} {control : Control}
    (h : step.governs control.authority = false) :
    (step.onControl control).registry = control.registry := by
  cases step with
  | authorize origin deployer =>
    have horigin : ¬control.authority origin = true := ne_true_of_eq_false h
    simp only [onControl]
    rw [if_neg horigin]
  | revoke origin deployer =>
    have horigin : ¬control.authority origin = true := ne_true_of_eq_false h
    simp only [onControl]
    rw [if_neg horigin]
  | rebuild authority genesis => cases h
  | _ => rfl

theorem onAuthority_of_not_governs {step : Step} {authority : Authority}
    (h : step.governs authority = false) : step.onAuthority authority = authority := by
  cases step with
  | rebuild next genesis => cases h
  | _ => rfl

theorem onConfig_of_not_governs {step : Step} {authority : Authority}
    (h : step.governs authority = false) (config : Config) : step.onConfig config = config := by
  cases step with
  | setConfig next => cases h
  | _ => rfl

theorem onBlock_of_not_governs {step : Step} {authority : Authority}
    (h : step.governs authority = false) (block : Block) : step.onBlock block = block := by
  cases step with
  | setBlock next => cases h
  | _ => rfl

end Step

/-- The steps of a history that bear on denials. -/
def governing : Authority → List Step → List Step
  | _, [] => []
  | authority, step :: rest =>
    if step.governs authority then step :: governing (step.onAuthority authority) rest
    else governing authority rest

namespace Session

/-- Sessions that deny alike: they have the same registry, authority and settings, though
perhaps other events and another world. -/
structure DeniesAlike (s t : Session) : Prop where
  registry : s.control.registry = t.control.registry
  authority : s.control.authority = t.control.authority
  config : s.config = t.config
  block : s.block = t.block

theorem DeniesAlike.step {s t : Session} (h : DeniesAlike s t) (step : Step) :
    DeniesAlike (s.step step).value.2 (t.step step).value.2 := by
  refine ⟨?_, ?_, ?_, ?_⟩
  · rw [control_step, control_step]
    exact step.registry_onControl_congr h.registry h.authority
  · rw [control_step, control_step, Step.authority_onControl, Step.authority_onControl,
      h.authority]
  · rw [config_step, config_step, h.config]
  · rw [block_step, block_step, h.block]

theorem DeniesAlike.step_of_not_governs {s t : Session} (h : DeniesAlike s t) {step : Step}
    (hidle : step.governs s.control.authority = false) :
    DeniesAlike (s.step step).value.2 t := by
  refine ⟨?_, ?_, ?_, ?_⟩
  · rw [control_step, Step.registry_onControl_of_not_governs hidle, h.registry]
  · rw [control_step, Step.authority_onControl, Step.onAuthority_of_not_governs hidle,
      h.authority]
  · rw [config_step, Step.onConfig_of_not_governs hidle, h.config]
  · rw [block_step, Step.onBlock_of_not_governs hidle, h.block]

theorem DeniesAlike.steps_governing {s t : Session} (h : DeniesAlike s t)
    (history : List Step) :
    DeniesAlike (s.steps history).2 (t.steps (governing t.control.authority history)).2 := by
  induction history generalizing s t with
  | nil => exact h
  | cons step rest ih =>
    rw [governing]
    split
    next hgoverns =>
      have hnext := ih (h.step step)
      rw [control_step t, Step.authority_onControl] at hnext
      exact hnext
    next hidle =>
      rw [← h.authority, Bool.not_eq_true] at hidle
      exact ih (h.step_of_not_governs hidle)

end Session

/-- The denial that a transaction gets at the end of a history, whatever comes after it. -/
def denialAfter (first : Session) (history : List Step) (mode : RunMode) (tx : Transaction)
    (nonce : Option Nat) (later : List Step) : Option (Address × Account) := do
  let answer ← (first.steps (history ++ .run mode tx nonce :: later)).1[history.length]?
  answer.value.denied?

theorem denialAfter_eq (first : Session) (history later : List Step) (mode : RunMode)
    (tx : Transaction) (nonce : Option Nat) :
    denialAfter first history mode tx nonce later
      = ((first.steps history).2.run mode
          ((first.steps history).2.withNonce tx nonce)).value.1.denied? := by
  rw [denialAfter, Session.getElem?_steps]
  rfl

theorem denialAfter_eq_some (first : Session) (history later : List Step) (mode : RunMode)
    (tx : Transaction) (nonce : Option Nat) (caller : Address) (deployer : Account) :
    denialAfter first history mode tx nonce later = some (caller, deployer)
      ↔ Validation.environmentFault (first.steps history).2.config (first.steps history).2.block
          tx = none
        ∧ (first.steps history).2.control.gate.Denies tx ∧ caller = tx.caller
        ∧ deployer = Account.ofAddress tx.caller := by
  rw [denialAfter_eq, Session.denied?_run_eq_some, Session.withNonce,
    Validation.environmentFault_setNonce]
  rfl

/-- **Creations are denied exactly to those whom governance has not authorized.**  A
transaction run anywhere in a session is denied if and only if it creates a contract, passes
the checks of the environment, and comes from an address whose account the history so far
leaves unauthorized; the denial names this address and this account.  Refused calls, drained
events and other transactions in the history do not matter. -/
theorem denied_iff_not_authorized (first : Session) (history later : List Step)
    (mode : RunMode) (tx : Transaction) (nonce : Option Nat) :
    let now := (first.steps history).2
    (∀ caller deployer, denialAfter first history mode tx nonce later = some (caller, deployer)
      ↔ tx.isCreation = true
        ∧ Validation.environmentFault now.config now.block (now.withNonce tx nonce) = none
        ∧ ¬AuthorizedBy first.control history (Account.ofAddress tx.caller)
        ∧ caller = tx.caller ∧ deployer = Account.ofAddress tx.caller)
      ∧ denialAfter first history mode tx nonce later
        = denialAfter first (governing first.control.authority history) mode tx nonce later := by
  intro now
  constructor
  · intro caller deployer
    rw [denialAfter_eq_some, ← Session.mem_accounts_steps, Session.withNonce,
      Validation.environmentFault_setNonce]
    constructor
    · rintro ⟨hfault, ⟨hcreation, hmissing⟩, hcaller, hdeployer⟩
      exact ⟨hcreation, hfault, hmissing, hcaller, hdeployer⟩
    · rintro ⟨hcreation, hfault, hmissing, hcaller, hdeployer⟩
      exact ⟨hfault, ⟨hcreation, hmissing⟩, hcaller, hdeployer⟩
  · -- The two sessions may differ in their worlds and events, which no denial looks at.
    have halike : Session.DeniesAlike now
        (first.steps (governing first.control.authority history)).2 :=
      Session.DeniesAlike.steps_governing ⟨rfl, rfl, rfl, rfl⟩ history
    refine Option.ext fun ⟨caller, deployer⟩ => ?_
    rw [denialAfter_eq_some, denialAfter_eq_some, Gate.Denies, Gate.Denies, Control.gate,
      Control.gate, ← halike.registry, ← halike.config, ← halike.block]

end CreationGate
