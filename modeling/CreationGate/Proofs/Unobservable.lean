import CreationGate.Assembly.Builder
import CreationGate.Proofs.AuditTrail
import CreationGate.Proofs.InStep

/-!
# Steps that nothing depends on

A refused governance call, a query that takes nothing and a run that is not committed leave
nothing behind but copies in the world (`Session.Alike.erase`), and copies change no answer of
any step (`Session.Alike.step`).  So erasing any number of such steps from a run leaves every
other answer and the last session as they were.
-/

namespace CreationGate

/-! ## The steps -/

namespace Step

/-- Whether a step only looks, and takes nothing. -/
def isQuery : Step → Bool
  | isAuthorized _ => true
  | isAuthorizedAddress _ => true
  | check _ => true
  | checkAddress _ => true
  | ensureAddressOrigin _ _ => true
  | events => true
  | members => true
  | store => true
  | gate => true
  | account _ _ => true
  | _ => false

/-- Whether a step runs a transaction without writing its changes. -/
def isDryRun : Step → Bool
  | run .dry _ _ => true
  | run .inspect _ _ => true
  | _ => false

/-- A step that nothing depends on once it was answered: a query, a run that is not committed,
or a governance call that was refused. -/
def Unobservable (step : Step) (answer : Answer) : Prop :=
  step.isQuery = true ∨ step.isDryRun = true
    ∨ ∃ origin, step.origin? = some origin ∧ answer.outcome? = some (.error .badOrigin)

end Step

namespace Session

/-- Apart from a run, what nothing depends on leaves the very same session. -/
theorem step_of_unobservable (session : Session) {step : Step}
    (hstep : step.Unobservable (session.step step).value.1) (hrun : step.isDryRun = false) :
    (session.step step).value.2 = session := by
  rcases hstep with hquery | hdry | ⟨origin, horigin, hrefused⟩
  · cases step with
    | authorize origin account => cases hquery
    | revoke origin account => cases hquery
    | takeEvents => cases hquery
    | rebuild authority genesis => cases hquery
    | setBalance address balance => cases hquery
    | setConfig config => cases hquery
    | setBlock block => cases hquery
    | run mode tx nonce => cases hquery
    | _ => rfl
  · rw [hrun] at hdry
    cases hdry
  · have hauthority : session.control.authority origin = false := by
      rw [session.outcome?_step horigin] at hrefused
      cases haccepts : session.control.authority origin with
      | true =>
        rw [haccepts] at hrefused
        cases hrefused
      | false => rfl
    exact session.step_of_refused horigin hauthority

/-! ## Sessions that differ in copies -/

/-- A session that differs from another one in copies alone, over a complete world. -/
structure Alike (session reference : Session) : Prop where
  control : session.control = reference.control
  config : session.config = reference.config
  block : session.block = reference.block
  world : session.world.AddsCopies reference.world
  complete : reference.world.Complete

namespace Alike

variable {session reference : Session}

theorem executor (h : Alike session reference) : session.executor = reference.executor := by
  rw [Session.executor, Session.executor, h.control, h.config, h.block]

theorem withNonce (h : Alike session reference) (tx : Transaction) (nonce : Option Nat) :
    session.withNonce tx nonce = reference.withNonce tx nonce := by
  rw [Session.withNonce, Session.withNonce, h.world.nonce]

/-- A run is answered alike, whether it is committed or not. -/
theorem run (h : Alike session reference) (mode : RunMode) (tx : Transaction) :
    (session.run mode tx).value.1 = (reference.run mode tx).value.1
      ∧ (session.run mode tx).log = (reference.run mode tx).log
      ∧ (session.run mode tx).value.2.world.AddsCopies (reference.run mode tx).value.2.world
      ∧ (reference.run mode tx).value.2.world.Complete := by
  have hexecutor := h.executor
  have hstart := Journal.InStep.start h.world (.refl reference.world) h.complete
  obtain ⟨outcome, world, last, log, hw, hr, hleft⟩ :=
    reference.executor.transact_inStep tx hstart
  have houtcome : Session.outcome world outcome = Session.outcome last outcome := by
    cases outcome with
    | error e => rfl
    | ok execution => simp only [Session.outcome, hleft.adds.diff]
  have hcomplete := h.complete.of_addsCopies hleft.grown
  cases mode with
  | dry =>
    unfold Session.run
    rw [hexecutor]
    simp only [hw, hr, Traced.value_bind, Traced.value_pure, Traced.log_bind, houtcome,
      true_and]
    exact ⟨rfl, hleft.adds, hcomplete⟩
  | inspect =>
    unfold Session.run
    rw [hexecutor]
    simp only [Executor.inspect_eq, hw, hr, Traced.value_bind, Traced.value_pure,
      Traced.log_bind, houtcome, true_and]
    exact ⟨rfl, hleft.adds, hcomplete⟩
  | commit =>
    obtain ⟨outcome, world, last, log, hw, hr, hadds, hcomplete⟩ :=
      reference.executor.transactCommit_inStep tx h.world h.complete
    unfold Session.run
    rw [hexecutor]
    simp only [hw, hr, Traced.value_bind, Traced.value_pure, Traced.log_bind, true_and]
    exact ⟨rfl, hadds, hcomplete⟩

/-- Every step is answered alike, reports alike, and leaves sessions that are alike. -/
theorem step (h : Alike session reference) (step : Step) :
    (session.step step).value.1 = (reference.step step).value.1
      ∧ (session.step step).log = (reference.step step).log
      ∧ Alike (session.step step).value.2 (reference.step step).value.2 := by
  -- Apart from the world, the sessions are the same before the step and after it.
  have hnext : (session.step step).value.2.world.AddsCopies (reference.step step).value.2.world →
      (reference.step step).value.2.world.Complete →
      Alike (session.step step).value.2 (reference.step step).value.2 := by
    intro hadds hcomplete
    refine ⟨?_, ?_, ?_, hadds, hcomplete⟩
    · rw [control_step, control_step, h.control]
    · rw [config_step, config_step, h.config]
    · rw [block_step, block_step, h.block]
  have hworld := h.world
  have hcomplete := h.complete
  cases step with
  | run mode tx nonce =>
    obtain ⟨hanswer, hlog, hadds, hlast⟩ := h.run mode (reference.withNonce tx nonce)
    rw [Session.step, Session.step, h.withNonce] at hnext ⊢
    exact ⟨hanswer, hlog, hnext hadds hlast⟩
  | setBalance address balance =>
    exact ⟨rfl, rfl, hnext (hworld.setBalance address balance)
      (hcomplete.setBalance address balance)⟩
  | account address slots =>
    refine ⟨?_, rfl, hnext hworld hcomplete⟩
    simp only [Session.step, Traced.value_pure, hworld.balance, hworld.nonce, hworld.code?,
      hworld.slot?_getD]
  | rebuild authority genesis =>
    obtain ⟨control, world, config, block⟩ := session
    obtain ⟨control', last, config', block'⟩ := reference
    obtain rfl : control = control' := h.control
    cases genesis with
    | none => exact ⟨rfl, rfl, hnext hworld hcomplete⟩
    | some genesis => exact ⟨rfl, rfl, hnext hworld hcomplete⟩
  | _ =>
    obtain ⟨control, world, config, block⟩ := session
    obtain ⟨control', last, config', block'⟩ := reference
    obtain rfl : control = control' := h.control
    exact ⟨rfl, rfl, hnext hworld hcomplete⟩

/-- A step that nothing depends on, taken in the first session alone, leaves it alike. -/
theorem erase (h : Alike session reference) {step : Step}
    (hstep : step.Unobservable (session.step step).value.1) :
    Alike (session.step step).value.2 reference := by
  cases hrun : step.isDryRun with
  | false =>
    rw [session.step_of_unobservable hstep hrun]
    exact h
  | true =>
    cases step with
    | run mode tx nonce =>
      have hcomplete := h.complete.of_addsCopies h.world
      have hread := session.executor.addsCopies_transact (session.withNonce tx nonce) hcomplete
      have hadds : (session.run mode (session.withNonce tx nonce)).value.2.world.AddsCopies
          session.world := by
        rw [world_run]
        cases mode with
        | dry => exact hread
        | inspect => exact hread
        | commit => cases hrun
      rw [Session.step, run_eq]
      exact ⟨h.control, h.config, h.block, hadds.trans h.world, h.complete⟩
    | _ => cases hrun

end Alike

end Session

/-! ## Runs with steps left out -/

/-- A list without its entries at some positions. -/
def unerased {α : Type} (erased : Nat → Bool) : List α → List α
  | [] => []
  | a :: rest =>
    let later := unerased (fun i => erased (i + 1)) rest
    if erased 0 then later else a :: later

theorem map_unerased {α β : Type} (f : α → β) (erased : Nat → Bool) (l : List α) :
    (unerased erased l).map f = unerased erased (l.map f) := by
  induction l generalizing erased with
  | nil => rfl
  | cons a rest ih =>
    rw [List.map_cons, unerased, unerased, ← ih]
    cases erased 0 with
    | true => rfl
    | false => rfl

/-- By induction on the steps: what any step keeps of two sessions, and a step left out of the
second one keeps as well, is kept by a run, and the answers are those of the whole run. -/
theorem Session.steps_unerased (Related : Session → Session → Prop)
    (Free : Step → Answer → Prop)
    (hkeep : ∀ {session reference : Session} (step : Step), Related session reference →
      (session.step step).value.1 = (reference.step step).value.1
        ∧ (session.step step).log = (reference.step step).log
        ∧ Related (session.step step).value.2 (reference.step step).value.2)
    (hfree : ∀ {session reference : Session} {step : Step}, Related session reference →
      Free step (session.step step).value.1 → Related (session.step step).value.2 reference)
    {session reference : Session} (h : Related session reference) (steps : List Step)
    {erased : Nat → Bool}
    (herased : ∀ i step answer, erased i = true → steps[i]? = some step →
      (session.steps steps).1[i]? = some answer → Free step answer.value) :
    (reference.steps (unerased erased steps)).1 = unerased erased (session.steps steps).1
      ∧ Related (session.steps steps).2 (reference.steps (unerased erased steps)).2 := by
  induction steps generalizing session reference erased with
  | nil => exact ⟨rfl, h⟩
  | cons step rest ih =>
    have hlater : ∀ i later answer, erased (i + 1) = true → rest[i]? = some later →
        ((session.step step).value.2.steps rest).1[i]? = some answer →
        Free later answer.value :=
      fun i later answer hi hstep hanswer => herased (i + 1) later answer hi hstep hanswer
    rw [Session.steps, unerased, unerased]
    cases hfirst : erased 0 with
    | true =>
      have hstep := herased 0 step _ hfirst rfl rfl
      simp only [if_true]
      exact ih (hfree h hstep) hlater
    | false =>
      obtain ⟨hanswer, hlog, hnext⟩ := hkeep step h
      obtain ⟨hanswers, hlast⟩ := ih hnext hlater
      simp only [Bool.false_eq_true, if_false]
      rw [Session.steps]
      refine ⟨?_, hlast⟩
      simp only [hanswer, hlog, hanswers]

/-- **Refused calls, queries and dry runs leave no trace.**  Take any steps and leave out any
of them that are refused governance calls, queries that take nothing, or runs that are not
committed, whatever became of them.  Every other step is answered as before and reports as
before; the registry, the event log and the settings end up the same; and the world reads the
same, since all that the steps left out have added to it are copies of what reads the same
without them.  Where runs are left out, the code of each account has to be at hand or stored
at the start: a look-up of code that is not stored would keep it from being stored later. -/
theorem unobservable_steps_leave_no_trace (first : Session) (steps : List Step)
    (erased : Nat → Bool)
    (hworld : first.world.Complete
      ∨ ∀ i step, erased i = true → steps[i]? = some step → step.isDryRun = false)
    (herased : ∀ i step answer, erased i = true → steps[i]? = some step →
      (first.steps steps).1[i]? = some answer → step.Unobservable answer.value) :
    let whole := first.steps steps
    let kept := first.steps (unerased erased steps)
    kept.1 = unerased erased whole.1
      ∧ kept.2.control = whole.2.control
      ∧ kept.2.config = whole.2.config
      ∧ kept.2.block = whole.2.block
      ∧ whole.2.world.ReadsAs kept.2.world
      ∧ whole.2.world.AddsCopies kept.2.world := by
  intro whole kept
  rcases hworld with hcomplete | hnorun
  · have hfirst : first.Alike first := ⟨rfl, rfl, rfl, .refl first.world, hcomplete⟩
    obtain ⟨hanswers, hlast⟩ := Session.steps_unerased Session.Alike Step.Unobservable
      (fun step h => h.step step) (fun h hstep => h.erase hstep) hfirst steps herased
    exact ⟨hanswers, hlast.control.symm, hlast.config.symm, hlast.block.symm,
      hlast.world.readsAs, hlast.world⟩
  · -- Without a run among them, the steps left out keep even the copies as they are.
    have hkeep : ∀ {session reference : Session} (step : Step), session = reference →
        (session.step step).value.1 = (reference.step step).value.1
          ∧ (session.step step).log = (reference.step step).log
          ∧ (session.step step).value.2 = (reference.step step).value.2 := by
      rintro session _ step rfl
      exact ⟨rfl, rfl, rfl⟩
    have hfree : ∀ {session reference : Session} {step : Step}, session = reference →
        step.Unobservable (session.step step).value.1 ∧ step.isDryRun = false →
        (session.step step).value.2 = reference := by
      rintro session _ step rfl ⟨hstep, hrun⟩
      exact session.step_of_unobservable hstep hrun
    have hfirst : first = first := rfl
    obtain ⟨hanswers, hlast⟩ := Session.steps_unerased Eq
      (fun step answer => step.Unobservable answer ∧ step.isDryRun = false) hkeep hfree hfirst
      steps fun i step answer hi hstep hanswer =>
        ⟨herased i step answer hi hstep hanswer, hnorun i step hi hstep⟩
    have hsame : whole.2 = kept.2 := hlast
    rw [hsame]
    exact ⟨hanswers, rfl, rfl, rfl, .refl kept.2.world, .refl kept.2.world⟩

/-- A committed call is answered alike with a refused call and a dry run before it and
without. -/
theorem commit_ignores_dry_run :
    let tx : Transaction := { caller := .zero, target := some (.repeated 20 1), value := 5 }
    let first : Session := {
      control := .create (.memory ∅) Authority.root none
      world := World.empty.putAccount .zero { balance := 9, nonce := 3 } [] }
    let steps : List Step :=
      [.authorize .unsigned (.repeated 32 7), .run .dry tx none, .run .commit tx none]
    let erased : Nat → Bool := fun i => i < 2
    first.world.Complete
      ∧ (first.steps [.run .commit tx none]).1 = unerased erased (first.steps steps).1 := by
  intro tx first steps erased
  have hcomplete : first.world.Complete :=
    World.complete_empty.putAccount .zero (World.knows_of_code rfl) []
  have herased : ∀ i step answer, erased i = true → steps[i]? = some step →
      (first.steps steps).1[i]? = some answer → step.Unobservable answer.value := by
    intro i step answer hi hstep hanswer
    have hearly : i < 2 := of_decide_eq_true hi
    obtain rfl | rfl : i = 0 ∨ i = 1 := by omega
    · cases hstep
      cases hanswer
      exact .inr (.inr ⟨_, rfl, rfl⟩)
    · cases hstep
      exact .inr (.inl rfl)
  have hkept : unerased erased steps = [.run .commit tx none] := rfl
  have hanswers :=
    (unobservable_steps_leave_no_trace first steps erased (.inl hcomplete) herased).1
  rw [hkept] at hanswers
  exact ⟨hcomplete, hanswers⟩

/-! ## Where code is missing -/

/-- What a run that went through gives back. -/
def Answer.output? : Answer → Option Bytes
  | ran (.ok (.success _ _ _ output _, _)) _ => some output
  | _ => none

namespace MissingCode

/-- Code that returns the byte seven. -/
def runtime : Bytes := [0x60, 0x07, 0x5f, 0x53, 0x60, 0x01, 0x5f, 0xf3]

/-- The digest of the runtime, evaluated once for the runs below. -/
theorem keccak256_runtime :
    keccak256 runtime = ⟨[0xd7, 0xa3, 0x09, 0xcb, 0x22, 0xa1, 0x0a, 0x9c, 0x21, 0x97, 0xe9, 0x4b,
      0x10, 0x00, 0xce, 0x34, 0xb6, 0xad, 0x2e, 0xa6, 0x50, 0x55, 0x29, 0x18, 0x2f, 0x1d, 0x5a,
      0xa5, 0xeb, 0x30, 0x9e, 0xc1], rfl⟩ := by
  decide +kernel

/-- An account carries the digest of the runtime, but its code is neither at hand nor stored. -/
def first : Session where
  control := .create (.memory (.ofList [Account.ofAddress .zero])) Authority.root none
  world := World.empty.putAccount (.repeated 20 1)
    { codeHash := keccak256 runtime, code := none } []

/-- A call of the account. -/
def call : Transaction := { caller := .zero, target := some (.repeated 20 1) }

/-- The creation of another account with the runtime. -/
def creation : Transaction := { caller := .zero, data := Assembly.deploy runtime }

/-- The creation is written back between two calls, of which the first is not. -/
def steps : List Step :=
  [.run .dry call none, .run .commit creation none, .run .commit call none]

/-- After the dry call, the last call has nothing to run. -/
theorem outputs_steps :
    (first.steps steps).1.map (·.value.output?) = [some [], some runtime, some []] := by
  rw [first, keccak256_runtime]
  decide +kernel

/-- Without the dry call, the last call runs what was deployed. -/
theorem outputs_unerased :
    (first.steps (unerased (· == 0) steps)).1.map (·.value.output?)
      = [some runtime, some [0x07]] := by
  rw [first, keccak256_runtime]
  decide +kernel

end MissingCode

/-- Where the code of an account is neither at hand nor stored, a dry run can be seen.  A dry
call of the account keeps the empty code as what has its digest, so that the deployment of a
runtime with that digest, which is written back, stores no other code under it, and the last
call has nothing to run.  With the dry call left out, it runs the runtime. -/
theorem dry_run_hides_code_stored_later :
    let whole := MissingCode.first.steps MissingCode.steps
    let kept := MissingCode.first.steps (unerased (· == 0) MissingCode.steps)
    (∀ i step answer, (i == 0) = true → MissingCode.steps[i]? = some step →
        whole.1[i]? = some answer → step.Unobservable answer.value)
      ∧ whole.1.map (·.value.output?) = [some [], some MissingCode.runtime, some []]
      ∧ kept.1.map (·.value.output?) = [some MissingCode.runtime, some [0x07]]
      ∧ kept.1 ≠ unerased (· == 0) whole.1 := by
  intro whole kept
  have hwhole : whole.1.map (·.value.output?) = [some [], some MissingCode.runtime, some []] :=
    MissingCode.outputs_steps
  have hkept : kept.1.map (·.value.output?) = [some MissingCode.runtime, some [0x07]] :=
    MissingCode.outputs_unerased
  refine ⟨?_, hwhole, hkept, fun hsame => ?_⟩
  · intro i step answer hi hstep _
    obtain rfl : i = 0 := beq_iff_eq.mp hi
    cases hstep
    exact .inr (.inl rfl)
  · have houtputs := congrArg (List.map (·.value.output?)) hsame
    rw [map_unerased, hwhole, hkept] at houtputs
    have hlast : (some [0x07] : Option Bytes) = some [] :=
      (List.cons.inj (List.cons.inj houtputs).2).1
    cases hlast

end CreationGate
