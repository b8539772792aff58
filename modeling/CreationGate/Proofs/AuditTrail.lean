import CreationGate.Proofs.History
import CreationGate.Proofs.SharedStore

/-!
# The event log as an audit trail

Governance writes to the registry and to the event log one after the other, and the log may be
drained at any time.  What was drained and what is still in the log together are the trail of
a run.  Each step adds to the trail what it does to the registry (`Step.batch_append_events`,
`Step.registry_onControl`), so over a run the trail has one event for each accepted call, and
the registry is what the trail makes of the first one.
-/

namespace CreationGate

/-! ## Events -/

namespace Event

/-- The registry after an event. -/
def apply (registry : Registry) : Event → Registry
  | authorized deployer => registry.insert deployer
  | revoked deployer => registry.remove deployer

/-- A set of accounts after an event. -/
def replay (members : AccountSet) : Event → AccountSet
  | authorized deployer => members.insert deployer ()
  | revoked deployer => members.erase deployer

theorem memory_foldl_replay (events : List Event) (members : AccountSet) :
    Registry.memory (events.foldl replay members) = events.foldl apply (.memory members) := by
  induction events generalizing members with
  | nil => rfl
  | cons event rest ih =>
    rw [List.foldl_cons, List.foldl_cons, ih]
    cases event <;> rfl

theorem accounts_apply_congr {r₁ r₂ : Registry} (h : r₁.accounts = r₂.accounts)
    (event : Event) : (apply r₁ event).accounts = (apply r₂ event).accounts := by
  cases event with
  | authorized deployer =>
    simp only [apply]
    rw [Registry.accounts_insert, Registry.accounts_insert, h]
  | revoked deployer =>
    simp only [apply]
    rw [Registry.accounts_remove, Registry.accounts_remove, h]

/-- Registries of either kind that hold the same accounts still do after the same events. -/
theorem accounts_foldl_apply_congr {r₁ r₂ : Registry} (h : r₁.accounts = r₂.accounts)
    (events : List Event) :
    (events.foldl apply r₁).accounts = (events.foldl apply r₂).accounts := by
  induction events generalizing r₁ r₂ with
  | nil => exact h
  | cons event rest ih => exact ih (accounts_apply_congr h event)

end Event

/-- Registries that hold the same accounts list the same members. -/
theorem Registry.members_congr {r₁ r₂ : Registry} (h : r₁.accounts = r₂.accounts) :
    r₁.members = r₂.members := by
  refine SortedMap.eq_of_ascending (f := FixedBytes.bytes) (members_ascending r₁)
    (members_ascending r₂) fun account => ?_
  rw [mem_members, mem_members, h]

/-- Replayed over the members listed before, events give the members listed after them. -/
theorem Registry.members_foldl_apply (registry : Registry) (events : List Event) :
    (events.foldl Event.apply registry).members
      = (events.foldl Event.replay (.ofList registry.members)).keys := by
  have hseed : registry.accounts = (Registry.memory (.ofList registry.members)).accounts := by
    ext account
    rw [AccountSet.mem_accounts_ofList, mem_members]
  have hreplayed := Event.accounts_foldl_apply_congr hseed events
  rw [← Event.memory_foldl_replay] at hreplayed
  rw [members_congr hreplayed]
  rfl

/-! ## Steps -/

namespace Step

/-- The origin of a governance call. -/
def origin? : Step → Option Origin
  | authorize origin _ => some origin
  | revoke origin _ => some origin
  | _ => none

/-- The event that a step records: one for each call that the authority accepts. -/
def event? (authority : Authority) : Step → Option Event
  | authorize origin deployer => if authority origin then some (.authorized deployer) else none
  | revoke origin deployer => if authority origin then some (.revoked deployer) else none
  | _ => none

/-- Whether a step puts a new control, with an empty log, in place of the old one. -/
def isRebuild : Step → Bool
  | rebuild _ _ => true
  | _ => false

/-- The events that a step hands out. -/
def batch (control : Control) : Step → List Event
  | takeEvents => control.events
  | _ => []

variable {step : Step} {control : Control}

/-- What a step hands out and leaves in the log is what was in the log and what it records. -/
theorem batch_append_events (h : step.isRebuild = false) :
    step.batch control ++ (step.onControl control).events
      = control.events ++ (step.event? control.authority).toList := by
  cases step with
  | authorize origin deployer =>
    simp only [batch, onControl, event?]
    split <;> simp
  | revoke origin deployer =>
    simp only [batch, onControl, event?]
    split <;> simp
  | rebuild authority genesis => cases h
  | _ => simp [batch, onControl, event?]

/-- A step changes the registry by the event that it records. -/
theorem registry_onControl (h : step.isRebuild = false) :
    (step.onControl control).registry
      = (step.event? control.authority).toList.foldl Event.apply control.registry := by
  cases step with
  | authorize origin deployer =>
    simp only [onControl, event?]
    split <;> rfl
  | revoke origin deployer =>
    simp only [onControl, event?]
    split <;> rfl
  | rebuild authority genesis => cases h
  | _ => rfl

theorem onAuthority_of_not_isRebuild (h : step.isRebuild = false) (authority : Authority) :
    step.onAuthority authority = authority := by
  cases step with
  | rebuild next genesis => cases h
  | _ => rfl

end Step

/-! ## Runs -/

/-- The events that a run hands out, batch after batch. -/
def drained : List Step → List (Traced Answer) → List Event
  | .takeEvents :: steps, ⟨.events batch, _⟩ :: answers => batch ++ drained steps answers
  | _ :: steps, _ :: answers => drained steps answers
  | _, _ => []

/-- The outcome that an answer to a governance call tells. -/
def Answer.outcome? : Answer → Option (Except DispatchError Unit)
  | dispatched outcome _ => some outcome
  | _ => none

/-- A control as it is created: over a registry as it stands, or seeding it first. -/
def Control.create (registry : Registry) (authority : Authority) : Option Genesis → Control
  | none => ⟨registry, authority, []⟩
  | some genesis => (ofGenesis registry authority genesis).value

theorem Control.authority_create (registry : Registry) (authority : Authority)
    (genesis : Option Genesis) : (create registry authority genesis).authority = authority := by
  cases genesis <;> rfl

theorem Control.events_create (registry : Registry) (authority : Authority)
    (genesis : Option Genesis) : (create registry authority genesis).events = [] := by
  cases genesis <;> rfl

namespace Session

theorem drained_cons (session : Session) (step : Step) (rest : List Step)
    (answers : List (Traced Answer)) :
    drained (step :: rest) (⟨(session.step step).value.1, (session.step step).log⟩ :: answers)
      = step.batch session.control ++ drained rest answers := by
  cases step <;> rfl

theorem authority_steps (first : Session) {steps : List Step}
    (h : ∀ step ∈ steps, step.isRebuild = false) :
    (first.steps steps).2.control.authority = first.control.authority := by
  induction steps generalizing first with
  | nil => rfl
  | cons step rest ih =>
    have hstep := h step List.mem_cons_self
    have hrest := ih (first.step step).value.2 fun later hlater =>
      h later (List.mem_cons_of_mem _ hlater)
    rw [control_step, Step.authority_onControl, Step.onAuthority_of_not_isRebuild hstep] at hrest
    exact hrest

/-- What a run hands out and leaves in the log is the first log and one event for each
accepted call. -/
theorem trail_steps (first : Session) {steps : List Step}
    (h : ∀ step ∈ steps, step.isRebuild = false) :
    drained steps (first.steps steps).1 ++ (first.steps steps).2.control.events
      = first.control.events ++ steps.filterMap (Step.event? first.control.authority) := by
  induction steps generalizing first with
  | nil => simp [Session.steps, drained]
  | cons step rest ih =>
    have hstep := h step List.mem_cons_self
    have hrest := ih (first.step step).value.2 fun later hlater =>
      h later (List.mem_cons_of_mem _ hlater)
    rw [control_step, Step.authority_onControl, Step.onAuthority_of_not_isRebuild hstep] at hrest
    rw [Session.steps, drained_cons, List.append_assoc, hrest, ← List.append_assoc,
      Step.batch_append_events hstep, List.append_assoc, List.filterMap_cons]
    cases step.event? first.control.authority <;> rfl

/-- The registry after a run is the first one with the event of each accepted call applied. -/
theorem registry_steps (first : Session) {steps : List Step}
    (h : ∀ step ∈ steps, step.isRebuild = false) :
    (first.steps steps).2.control.registry
      = (steps.filterMap (Step.event? first.control.authority)).foldl Event.apply
          first.control.registry := by
  induction steps generalizing first with
  | nil => rfl
  | cons step rest ih =>
    have hstep := h step List.mem_cons_self
    have hrest := ih (first.step step).value.2 fun later hlater =>
      h later (List.mem_cons_of_mem _ hlater)
    rw [control_step, Step.authority_onControl, Step.onAuthority_of_not_isRebuild hstep,
      Step.registry_onControl hstep] at hrest
    rw [Session.steps, hrest, List.filterMap_cons]
    cases step.event? first.control.authority <;> rfl

/-- A governance call is accepted exactly if the authority accepts its origin. -/
theorem outcome?_step (session : Session) {step : Step} {origin : Origin}
    (h : step.origin? = some origin) :
    (session.step step).value.1.outcome?
      = some (if session.control.authority origin then .ok () else .error .badOrigin) := by
  cases step with
  | authorize found deployer =>
    cases h
    simp only [Session.step, dispatched, Control.authorize]
    split <;> rfl
  | revoke found deployer =>
    cases h
    simp only [Session.step, dispatched, Control.revoke]
    split <;> rfl
  | _ => cases h

/-- A refused call changes nothing. -/
theorem step_of_refused (session : Session) {step : Step} {origin : Origin}
    (h : step.origin? = some origin) (hrefused : session.control.authority origin = false) :
    (session.step step).value.2 = session := by
  cases step with
  | authorize found deployer =>
    cases h
    simp only [Session.step, dispatched, Control.authorize, hrefused]
    rfl
  | revoke found deployer =>
    cases h
    simp only [Session.step, dispatched, Control.revoke, hrefused]
    rfl
  | _ => cases h

end Session

/-- **The event log is a complete and exact audit trail.**  Take any steps that keep the
control they start with, drained at any points.  The trail has one event for each accepted
call, in order, and no other; replayed over the members listed at the start it gives the
members listed at the end.  A call is accepted exactly if the authority accepts its origin,
and a refused one leaves the session, with every entry of its store and its log, as it was. -/
theorem event_log_is_audit_trail (session : Session) (registry : Registry)
    (authority : Authority) (genesis : Option Genesis) {steps : List Step}
    (h : ∀ step ∈ steps, step.isRebuild = false) :
    let first := { session with control := .create registry authority genesis }
    let last := (first.steps steps).2.control
    let trail := drained steps (first.steps steps).1 ++ last.events
    trail = steps.filterMap (Step.event? authority)
      ∧ last.registry.members
          = (trail.foldl Event.replay (.ofList first.control.registry.members)).keys
      ∧ ∀ before step after origin, steps = before ++ step :: after →
          step.origin? = some origin →
          ∃ taken, (first.steps steps).1[before.length]? = some taken
            ∧ (taken.value.outcome? = some (.ok ()) ↔ authority origin = true)
            ∧ (authority origin = false →
                taken.value.outcome? = some (.error .badOrigin)
                  ∧ (first.steps (before ++ [step])).2 = (first.steps before).2) := by
  intro first last trail
  have hauthority : first.control.authority = authority :=
    Control.authority_create registry authority genesis
  have htrail : trail = steps.filterMap (Step.event? authority) := by
    have hrun := first.trail_steps h
    have hempty : first.control.events = [] := Control.events_create registry authority genesis
    rw [hempty, hauthority, List.nil_append] at hrun
    exact hrun
  refine ⟨htrail, ?_, ?_⟩
  · have hregistry : last.registry = trail.foldl Event.apply first.control.registry := by
      rw [htrail, ← hauthority]
      exact first.registry_steps h
    rw [hregistry]
    exact first.control.registry.members_foldl_apply trail
  · rintro before step after origin rfl horigin
    -- The authority at the call is the one at the start, since no step has replaced it.
    have hnow : (first.steps before).2.control.authority = authority := by
      rw [← hauthority]
      exact first.authority_steps fun earlier hearlier =>
        h earlier (List.mem_append_left _ hearlier)
    have houtcome := (first.steps before).2.outcome?_step horigin
    rw [hnow] at houtcome
    refine ⟨_, first.getElem?_steps before step after, ?_, fun hrefused => ⟨?_, ?_⟩⟩
    · rw [houtcome]
      cases authority origin <;> simp
    · rw [houtcome, hrefused]
      rfl
    · rw [Session.steps_append]
      exact (first.steps before).2.step_of_refused horigin (hnow ▸ hrefused)

/-- A log that is drained between two calls, of which one repeats and one is refused. -/
theorem event_log_of_drained_run :
    let deployer : Account := .repeated 32 7
    let steps : List Step := [.authorize .root deployer, .authorize .root deployer,
      .takeEvents, .revoke .unsigned deployer, .revoke .root deployer]
    let first : Session := { control := .create (.stored ∅) Authority.root none }
    (∀ step ∈ steps, step.isRebuild = false)
      ∧ drained steps (first.steps steps).1 ++ (first.steps steps).2.control.events
          = [.authorized deployer, .authorized deployer, .revoked deployer] := by
  intro deployer steps first
  have hsteps : ∀ step ∈ steps, step.isRebuild = false := by simp [steps, Step.isRebuild]
  exact ⟨hsteps,
    (event_log_is_audit_trail first (.stored ∅) Authority.root none hsteps).1.trans rfl⟩

end CreationGate
