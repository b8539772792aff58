import CreationGate.Session

/-!
# What a step does to each part of a session

A step acts on the control, on the settings and on the world separately.  Each part has one
equation here, and everything said about a part over a run follows from its equation.
-/

namespace CreationGate

/-! ## The control and the settings -/

namespace Step

/-- The control after a step.  Only governance calls that the authority accepts, draining the
events, and rebuilding change it. -/
def onControl (step : Step) (control : Control) : Control :=
  match step with
  | authorize origin deployer =>
    if control.authority origin then
      { control with
        registry := control.registry.insert deployer
        events := control.events ++ [.authorized deployer] }
    else control
  | revoke origin deployer =>
    if control.authority origin then
      { control with
        registry := control.registry.remove deployer
        events := control.events ++ [.revoked deployer] }
    else control
  | takeEvents => { control with events := [] }
  | rebuild authority none => ⟨control.registry, authority, []⟩
  | rebuild authority (some genesis) =>
    ⟨control.registry.insertAll genesis.accounts, authority, []⟩
  | _ => control

/-- The rules after a step. -/
def onConfig (step : Step) (config : Config) : Config :=
  match step with
  | setConfig config => config
  | _ => config

/-- The block after a step. -/
def onBlock (step : Step) (block : Block) : Block :=
  match step with
  | setBlock block => block
  | _ => block

end Step

namespace Session

/-- Running a transaction leaves everything but the world as it was. -/
theorem run_eq (session : Session) (mode : RunMode) (tx : Transaction) :
    (session.run mode tx).value.2
      = { session with world := (session.run mode tx).value.2.world } := by
  cases mode <;> rfl

theorem control_step (session : Session) (step : Step) :
    (session.step step).value.2.control = step.onControl session.control := by
  cases step with
  | authorize origin account =>
    simp only [Session.step, dispatched, Control.authorize, Step.onControl]
    split <;> rfl
  | revoke origin account =>
    simp only [Session.step, dispatched, Control.revoke, Step.onControl]
    split <;> rfl
  | rebuild authority genesis => cases genesis <;> rfl
  | run mode tx nonce =>
    rw [Session.step, run_eq]
    rfl
  | _ => rfl

theorem config_step (session : Session) (step : Step) :
    (session.step step).value.2.config = step.onConfig session.config := by
  cases step with
  | rebuild authority genesis => cases genesis <;> rfl
  | run mode tx nonce =>
    rw [Session.step, run_eq]
    rfl
  | _ => rfl

theorem block_step (session : Session) (step : Step) :
    (session.step step).value.2.block = step.onBlock session.block := by
  cases step with
  | rebuild authority genesis => cases genesis <;> rfl
  | run mode tx nonce =>
    rw [Session.step, run_eq]
    rfl
  | _ => rfl

/-! ## The world -/

/-- The world after a transaction, however it is run. -/
theorem world_run (session : Session) (mode : RunMode) (tx : Transaction) :
    (session.run mode tx).value.2.world
      = match mode with
        | .commit => (session.executor.transactCommit session.world tx).value.2
        | _ => (session.executor.transact session.world tx).value.2 := by
  cases mode <;> rfl

/-- A step that neither sets a balance nor runs a transaction leaves the world as it was. -/
theorem world_step_of_idle (session : Session) {step : Step}
    (hbalance : ∀ address balance, step ≠ .setBalance address balance)
    (hrun : ∀ mode tx nonce, step ≠ .run mode tx nonce) :
    (session.step step).value.2.world = session.world := by
  cases step with
  | setBalance address balance => exact absurd rfl (hbalance address balance)
  | run mode tx nonce => exact absurd rfl (hrun mode tx nonce)
  | rebuild authority genesis => cases genesis <;> rfl
  | _ => rfl

/-! ## Runs -/

theorem steps_append (session : Session) (before after : List Step) :
    session.steps (before ++ after)
      = ((session.steps before).1 ++ ((session.steps before).2.steps after).1,
        ((session.steps before).2.steps after).2) := by
  induction before generalizing session with
  | nil => rfl
  | cons step before ih =>
    rw [List.cons_append, steps, ih]
    rfl

theorem length_steps (session : Session) (steps : List Step) :
    (session.steps steps).1.length = steps.length := by
  induction steps generalizing session with
  | nil => rfl
  | cons step rest ih =>
    rw [Session.steps, List.length_cons, List.length_cons, ih]

/-- A step anywhere in a run is taken in the session that the steps before it leave. -/
theorem getElem?_steps (session : Session) (before : List Step) (step : Step)
    (after : List Step) :
    (session.steps (before ++ step :: after)).1[before.length]?
      = some ⟨((session.steps before).2.step step).value.1,
        ((session.steps before).2.step step).log⟩ := by
  rw [steps_append, ← length_steps session before, List.getElem?_append_right (Nat.le_refl _),
    Nat.sub_self]
  rfl

end Session

end CreationGate
