import CreationGate.Proofs.AuditTrail

/-!
# Steps that may change places

Governance calls on different accounts write different keys, and a transaction learns of the
registry only whether it holds the account of its sender, and that only if it creates a
contract (`Session.run_withRegistry`).  So neighbouring steps of which one is a call on an
account that the other has nothing to do with may change places (`Session.EndAlike.swap`).

From neighbours to whole runs it is a matter of lists: lists that look the same in every view
differ only in the order of neighbours that no view shows together (`Shuffled.of_filter_eq`).
-/

namespace CreationGate

/-! ## Lists in many views -/

section Shuffling

variable {ι α : Type} {view : ι → α → Bool}

/-- Lists that differ in the order of neighbours of which no view shows both. -/
inductive Shuffled (view : ι → α → Bool) : List α → List α → Prop where
  | nil : Shuffled view [] []
  | cons (a : α) {l l' : List α} (rest : Shuffled view l l') : Shuffled view (a :: l) (a :: l')
  | swap (a b : α) (l : List α) (apart : ∀ i, view i a = true → view i b = false) :
      Shuffled view (a :: b :: l) (b :: a :: l)
  | trans {l₁ l₂ l₃ : List α} (first : Shuffled view l₁ l₂) (second : Shuffled view l₂ l₃) :
      Shuffled view l₁ l₃

namespace Shuffled

theorem refl (l : List α) : Shuffled view l l := by
  induction l with
  | nil => exact .nil
  | cons a l ih => exact .cons a ih

/-- An element moves past elements that no view shows together with it. -/
theorem cons_append (a : α) {front : List α} (l : List α)
    (h : ∀ b ∈ front, ∀ i, view i a = true → view i b = false) :
    Shuffled view (a :: (front ++ l)) (front ++ a :: l) := by
  induction front with
  | nil => exact refl (a :: l)
  | cons b front ih =>
    have hrest := ih fun c hc => h c (List.mem_cons_of_mem _ hc)
    exact .trans (.swap a b _ (h b List.mem_cons_self)) (.cons b hrest)

/-- By induction on the first list.  Its first element is in some view, so it is in the second
list too; and whatever comes before it there is in no view with it, since every view of the
second list that shows it shows it first. -/
theorem of_filter_eq (hcover : ∀ a, ∃ i, view i a = true) {l l' : List α}
    (h : ∀ i, l.filter (view i) = l'.filter (view i)) : Shuffled view l l' := by
  induction l generalizing l' with
  | nil =>
    cases l' with
    | nil => exact .nil
    | cons b rest =>
      obtain ⟨i, hi⟩ := hcover b
      have hview := h i
      rw [List.filter_cons_of_pos hi] at hview
      cases hview
  | cons a l ih =>
    have hmem : a ∈ l' := by
      obtain ⟨i, hi⟩ := hcover a
      have hview := h i
      rw [List.filter_cons_of_pos hi] at hview
      have hshown : a ∈ l'.filter (view i) := hview ▸ List.mem_cons_self
      exact (List.mem_filter.mp hshown).1
    obtain ⟨front, back, rfl, hnew⟩ := List.eq_append_cons_of_mem hmem
    have hnone : ∀ i, view i a = true → front.filter (view i) = [] := by
      intro i hi
      have hview := h i
      rw [List.filter_cons_of_pos hi, List.filter_append] at hview
      cases hfront : front.filter (view i) with
      | nil => rfl
      | cons b shown =>
        rw [hfront] at hview
        obtain rfl : a = b := (List.cons.inj hview).1
        have hb : a ∈ front.filter (view i) := hfront ▸ List.mem_cons_self
        exact absurd (List.mem_filter.mp hb).1 hnew
    have hapart : ∀ b ∈ front, ∀ i, view i a = true → view i b = false := by
      intro b hb i hi
      have hhidden := List.filter_eq_nil_iff.mp (hnone i hi) b hb
      exact Bool.eq_false_iff.mpr hhidden
    have hrest : ∀ i, l.filter (view i) = (front ++ back).filter (view i) := by
      intro i
      have hview := h i
      rw [List.filter_append] at hview ⊢
      by_cases hi : view i a = true
      · rw [List.filter_cons_of_pos hi, List.filter_cons_of_pos hi, hnone i hi] at hview
        rw [hnone i hi]
        exact (List.cons.inj hview).2
      · rw [List.filter_cons_of_neg hi, List.filter_cons_of_neg hi] at hview
        exact hview
    exact .trans (.cons a (ih hrest)) (cons_append a back hapart)

end Shuffled

end Shuffling

/-! ## Writes to a registry -/

namespace Registry

/-- The registry with an account added or removed. -/
def write (registry : Registry) (account : Account) (member : Bool) : Registry :=
  if member then registry.insert account else registry.remove account

theorem write_memory (members : AccountSet) (account : Account) (member : Bool) :
    (memory members).write account member
      = memory (members.put account (if member then some () else none)) := by
  cases member <;> rfl

theorem write_stored (store : ByteStore) (account : Account) (member : Bool) :
    (stored store).write account member
      = stored (store.put (Key.ofAccount account) (if member then some [] else none)) := by
  cases member <;> rfl

/-- Writes of different accounts may change places, entry by entry. -/
theorem write_comm (registry : Registry) {a b : Account} (h : a ≠ b) (x y : Bool) :
    (registry.write a x).write b y = (registry.write b y).write a x := by
  cases registry with
  | memory members =>
    simp only [write_memory]
    exact congrArg memory (members.put_comm h _ _)
  | stored store =>
    have hkeys : Key.ofAccount a ≠ Key.ofAccount b := fun heq => h (Key.ofAccount_inj.mp heq)
    simp only [write_stored]
    exact congrArg stored (store.put_comm hkeys _ _)

theorem contains_write_of_ne (registry : Registry) {a b : Account} (h : b ≠ a) (member : Bool) :
    (registry.write a member).contains b = registry.contains b := by
  rw [Bool.eq_iff_iff, contains_iff, contains_iff]
  cases member with
  | true =>
    simp only [write, if_true, accounts_insert, Set.mem_union, Set.mem_singleton_iff]
    exact or_iff_left h
  | false =>
    simp only [write, Bool.false_eq_true, if_false, accounts_remove, Set.mem_sdiff,
      Set.mem_singleton_iff]
    exact and_iff_left h

end Registry

/-! ## Governance calls -/

/-- A governance call: who makes it, which account it is about, and whether it asks for the
authorization of this account or takes it back. -/
structure GovernanceCall where
  origin : Origin
  deployer : Account
  grants : Bool

/-- The governance call that a step makes. -/
def Step.call? : Step → Option GovernanceCall
  | authorize origin deployer => some ⟨origin, deployer, true⟩
  | revoke origin deployer => some ⟨origin, deployer, false⟩
  | _ => none

namespace GovernanceCall

/-- The step that makes a governance call. -/
def step : GovernanceCall → Step
  | ⟨origin, deployer, true⟩ => .authorize origin deployer
  | ⟨origin, deployer, false⟩ => .revoke origin deployer

/-- The event that an accepted call records. -/
def event (call : GovernanceCall) : Event :=
  if call.grants then .authorized call.deployer else .revoked call.deployer

/-- What an accepted call reports. -/
def entry (call : GovernanceCall) : LogEntry :=
  if call.grants then .deployerAuthorized call.deployer else .deployerRevoked call.deployer

theorem isRebuild_step (call : GovernanceCall) : call.step.isRebuild = false := by
  obtain ⟨origin, deployer, grants⟩ := call
  cases grants <;> rfl

theorem step_of_call? {step : Step} {call : GovernanceCall} (h : step.call? = some call) :
    step = call.step := by
  cases step with
  | authorize origin deployer => cases h; rfl
  | revoke origin deployer => cases h; rfl
  | _ => cases h

/-- The registry after a call: unchanged if the authority refuses its origin. -/
def onRegistry (call : GovernanceCall) (authority : Authority) (registry : Registry) : Registry :=
  if authority call.origin then registry.write call.deployer call.grants else registry

variable {authority : Authority} {a b : GovernanceCall}

/-- Calls may change places if they are on different accounts, ask for the same, or one of them
is refused. -/
theorem onRegistry_comm (h : a.deployer ≠ b.deployer ∨ authority a.origin = false
      ∨ authority b.origin = false ∨ a.grants = b.grants) (registry : Registry) :
    b.onRegistry authority (a.onRegistry authority registry)
      = a.onRegistry authority (b.onRegistry authority registry) := by
  unfold onRegistry
  by_cases ha : authority a.origin = true
  · by_cases hb : authority b.origin = true
    · simp only [ha, hb, if_true]
      by_cases hdeployer : a.deployer = b.deployer
      · have hgrants : a.grants = b.grants := by
          rcases h with h | h | h | h
          · exact absurd hdeployer h
          · rw [ha] at h
            cases h
          · rw [hb] at h
            cases h
          · exact h
        rw [hdeployer, hgrants]
      · exact registry.write_comm hdeployer a.grants b.grants
    · simp only [hb, Bool.false_eq_true, if_false]
  · simp only [ha, Bool.false_eq_true, if_false]

theorem contains_onRegistry_of_ne (call : GovernanceCall) {account : Account}
    (h : account ≠ call.deployer) (registry : Registry) :
    (call.onRegistry authority registry).contains account = registry.contains account := by
  unfold onRegistry
  split
  · exact registry.contains_write_of_ne h call.grants
  · rfl

end GovernanceCall

/-! ## The event log left out -/

/-- An answer without what it tells of the event log. -/
def Answer.withoutEvents : Answer → Answer
  | dispatched outcome _ => dispatched outcome 0
  | events _ => events []
  | answer => answer

/-- A traced answer without what it tells of the event log. -/
def Traced.withoutEvents (taken : Traced Answer) : Traced Answer :=
  ⟨taken.value.withoutEvents, taken.log⟩

namespace Session

variable {session other : Session}

/-- A session with an empty event log. -/
def withoutEvents (session : Session) : Session :=
  { session with control := { session.control with events := [] } }

/-- Sessions that differ in their event logs alone have the same registry and the same world. -/
theorem eq_of_withoutEvents (h : session.withoutEvents = other.withoutEvents) :
    session.control.registry = other.control.registry ∧ session.world = other.world := by
  have hregistry := congrArg (fun last : Session => last.control.registry) h
  have hworld := congrArg Session.world h
  exact ⟨hregistry, hworld⟩

/-- A session with another registry. -/
def withRegistry (session : Session) (registry : Registry) : Session :=
  { session with control := { session.control with registry := registry } }

/-- The answer to a step, as the list of answers to a run has it. -/
def answer (session : Session) (step : Step) : Traced Answer :=
  ⟨(session.step step).value.1, (session.step step).log⟩

/-- The session after a step. -/
def after (session : Session) (step : Step) : Session := (session.step step).value.2

/-- What a call is answered, what it leaves, and what it reports. -/
theorem step_call (session : Session) (call : GovernanceCall) :
    session.step call.step
      = if session.control.authority call.origin then
          ⟨(.dispatched (.ok ()) (session.control.events ++ [call.event]).length, { session with
            control := { session.control with
              registry := session.control.registry.write call.deployer call.grants
              events := session.control.events ++ [call.event] } }), [call.entry]⟩
        else
          ⟨(.dispatched (.error .badOrigin) session.control.events.length, session),
            [.callRejected call.origin]⟩ := by
  obtain ⟨origin, deployer, grants⟩ := call
  cases grants with
  | true =>
    simp only [GovernanceCall.step, Session.step, dispatched, Control.authorize]
    split <;> rfl
  | false =>
    simp only [GovernanceCall.step, Session.step, dispatched, Control.revoke]
    split <;> rfl

/-- What a call is answered depends on the authority alone, the event log apart. -/
theorem answer_call_congr (h : session.control.authority = other.control.authority)
    (call : GovernanceCall) :
    (session.answer call.step).withoutEvents = (other.answer call.step).withoutEvents := by
  unfold answer
  rw [step_call, step_call, h]
  split <;> rfl

theorem after_call (session : Session) (call : GovernanceCall) :
    (session.after call.step).withoutEvents
      = (session.withRegistry
          (call.onRegistry session.control.authority session.control.registry)).withoutEvents := by
  unfold after GovernanceCall.onRegistry
  rw [step_call]
  split <;> rfl

theorem answer_withoutEvents (session : Session) (step : Step) :
    (session.withoutEvents.answer step).withoutEvents = (session.answer step).withoutEvents := by
  cases step with
  | authorize origin account =>
    have hauthority : session.withoutEvents.control.authority = session.control.authority := rfl
    exact answer_call_congr hauthority ⟨origin, account, true⟩
  | revoke origin account =>
    have hauthority : session.withoutEvents.control.authority = session.control.authority := rfl
    exact answer_call_congr hauthority ⟨origin, account, false⟩
  | rebuild authority genesis => cases genesis <;> rfl
  | run mode tx nonce => cases mode <;> rfl
  | _ => rfl

theorem after_withoutEvents (session : Session) (step : Step) :
    (session.withoutEvents.after step).withoutEvents = (session.after step).withoutEvents := by
  cases step with
  | authorize origin account =>
    exact (after_call _ ⟨origin, account, true⟩).trans (after_call session _).symm
  | revoke origin account =>
    exact (after_call _ ⟨origin, account, false⟩).trans (after_call session _).symm
  | rebuild authority genesis => cases genesis <;> rfl
  | run mode tx nonce => cases mode <;> rfl
  | _ => rfl

/-- Sessions that differ in their event logs alone answer a step alike. -/
theorem answer_congr (h : session.withoutEvents = other.withoutEvents) (step : Step) :
    (session.answer step).withoutEvents = (other.answer step).withoutEvents := by
  rw [← answer_withoutEvents session, h, answer_withoutEvents other]

/-- Sessions that differ in their event logs alone still do after a step. -/
theorem after_congr (h : session.withoutEvents = other.withoutEvents) (step : Step) :
    (session.after step).withoutEvents = (other.after step).withoutEvents := by
  rw [← after_withoutEvents session, h, after_withoutEvents other]

end Session

/-! ## Transactions -/

/-- A transaction learns of the registry whether it holds the account of its sender, and that
only if it creates a contract. -/
theorem Executor.transact_withGate {executor : Executor} {other : Gate} {tx : Transaction}
    (h : tx.isCreation = true → other.registry.contains (Account.ofAddress tx.caller)
      = executor.gate.registry.contains (Account.ofAddress tx.caller)) (world : World) :
    { executor with gate := other }.transact world tx = executor.transact world tx := by
  have henforce : other.enforce tx = executor.gate.enforce tx := by
    unfold Gate.enforce
    by_cases hcreation : tx.isCreation = true
    · simp only [hcreation, if_true, Gate.check, h hcreation]
    · simp only [hcreation]
      rfl
  have hvalidate : (Handler.deployment other).validate executor.config executor.block tx
      = (Handler.deployment executor.gate).validate executor.config executor.block tx := by
    simp only [Handler.deployment, henforce]
  unfold transact Handler.run
  rw [hvalidate]
  rfl

namespace Step

/-- The account whose admission a step asks for: that of the sender, if it creates a contract. -/
def creator? : Step → Option Account
  | run _ tx _ => if tx.isCreation then some (Account.ofAddress tx.caller) else none
  | _ => none

/-- Whether a step runs a transaction. -/
def isRun : Step → Bool
  | run _ _ _ => true
  | _ => false

end Step

theorem Step.creator?_run_of_isCreation {tx : Transaction} (h : tx.isCreation = true)
    (mode : RunMode) (nonce : Option Nat) :
    (Step.run mode tx nonce).creator? = some (Account.ofAddress tx.caller) :=
  if_pos h

/-- A call changes nothing for a step that does not ask for the account of the call. -/
theorem GovernanceCall.contains_onRegistry_of_creator? (call : GovernanceCall) {step : Step}
    (h : step.creator? ≠ some call.deployer) (authority : Authority) (registry : Registry)
    (account : Account) (haccount : step.creator? = some account) :
    (call.onRegistry authority registry).contains account = registry.contains account :=
  call.contains_onRegistry_of_ne (fun heq => h (heq ▸ haccount)) registry

namespace Session

variable {session : Session} {registry : Registry} {step : Step}

theorem run_withRegistry {mode : RunMode} {tx : Transaction}
    (h : tx.isCreation = true → registry.contains (Account.ofAddress tx.caller)
      = session.control.registry.contains (Account.ofAddress tx.caller)) :
    (session.withRegistry registry).run mode tx
      = ⟨((session.run mode tx).value.1, (session.run mode tx).value.2.withRegistry registry),
          (session.run mode tx).log⟩ := by
  have hworld : (session.withRegistry registry).world = session.world := rfl
  have hrun : (session.withRegistry registry).executor.transact session.world tx
      = session.executor.transact session.world tx :=
    @Executor.transact_withGate session.executor ⟨registry⟩ tx h session.world
  cases mode with
  | dry =>
    simp only [run, hworld, hrun]
    rfl
  | inspect =>
    simp only [run, Executor.inspect_eq, hworld, hrun]
    rfl
  | commit =>
    simp only [run, Executor.transactCommit, hworld, hrun]
    rfl

/-- A step that makes no call and puts no new control in place leaves with another registry what
it leaves without, as long as it asks for no account on which the two differ. -/
theorem after_withRegistry (hcall : step.call? = none) (hrebuild : step.isRebuild = false)
    (hcreator : ∀ account, step.creator? = some account →
      registry.contains account = session.control.registry.contains account) :
    (session.withRegistry registry).after step = (session.after step).withRegistry registry := by
  cases step with
  | authorize origin account => cases hcall
  | revoke origin account => cases hcall
  | rebuild authority genesis => cases hrebuild
  | run mode tx nonce =>
    have hrun := @run_withRegistry session registry mode (session.withNonce tx nonce)
      fun hcreation => hcreator _ (Step.creator?_run_of_isCreation hcreation mode nonce)
    exact congrArg (fun taken => taken.value.2) hrun
  | _ => rfl

theorem answer_run_withRegistry (hrun : step.isRun = true)
    (hcreator : ∀ account, step.creator? = some account →
      registry.contains account = session.control.registry.contains account) :
    (session.withRegistry registry).answer step = session.answer step := by
  cases step with
  | run mode tx nonce =>
    have hrun := @run_withRegistry session registry mode (session.withNonce tx nonce)
      fun hcreation => hcreator _ (Step.creator?_run_of_isCreation hcreation mode nonce)
    exact congrArg (fun taken => (⟨taken.value.1, taken.log⟩ : Traced Answer)) hrun
  | _ => cases hrun

/-- The answer to a transaction tells nothing of the event log. -/
theorem answer_run_withoutEvents (hrun : step.isRun = true) (session : Session) :
    (session.answer step).withoutEvents = session.answer step := by
  cases step with
  | run mode tx nonce => cases mode <;> rfl
  | _ => cases hrun

theorem authority_after (session : Session) (hrebuild : step.isRebuild = false) :
    (session.after step).control.authority = session.control.authority := by
  rw [after, control_step, Step.authority_onControl, Step.onAuthority_of_not_isRebuild hrebuild]

theorem registry_after (session : Session) (hcall : step.call? = none)
    (hrebuild : step.isRebuild = false) :
    (session.after step).control.registry = session.control.registry := by
  rw [after, control_step]
  cases step with
  | authorize origin account => cases hcall
  | revoke origin account => cases hcall
  | rebuild authority genesis => cases hrebuild
  | _ => rfl

/-! ## Neighbours -/

/-- Two calls that ask for the same, are on different accounts, or of which one is refused. -/
theorem after_calls {a b : GovernanceCall} (h : a.deployer ≠ b.deployer
      ∨ session.control.authority a.origin = false ∨ session.control.authority b.origin = false
      ∨ a.grants = b.grants) :
    ((session.after b.step).after a.step).withoutEvents
      = ((session.after a.step).after b.step).withoutEvents := by
  have htwo : ∀ first second : GovernanceCall,
      ((session.after first.step).after second.step).withoutEvents
        = (session.withRegistry (second.onRegistry session.control.authority
            (first.onRegistry session.control.authority session.control.registry))).withoutEvents
      := by
    intro first second
    rw [after_congr (after_call session first), after_call]
    rfl
  rw [htwo, htwo, GovernanceCall.onRegistry_comm h]

/-- A call, and a step that makes none and does not ask for the account of this one. -/
theorem after_call_after {call : GovernanceCall} (hcall : step.call? = none)
    (hrebuild : step.isRebuild = false) (hcreator : step.creator? ≠ some call.deployer) :
    ((session.after step).after call.step).withoutEvents
      = ((session.after call.step).after step).withoutEvents := by
  have hsame := call.contains_onRegistry_of_creator? hcreator session.control.authority
    session.control.registry
  rw [after_call, authority_after session hrebuild, registry_after session hcall hrebuild,
    after_congr (after_call session call), after_withRegistry hcall hrebuild hsame]

theorem answer_run_after_call {call : GovernanceCall} (hrun : step.isRun = true)
    (hcreator : step.creator? ≠ some call.deployer) :
    (session.after call.step).answer step = session.answer step := by
  have hsame := call.contains_onRegistry_of_creator? hcreator session.control.authority
    session.control.registry
  have hanswer := answer_congr (after_call session call) step
  rw [answer_run_withoutEvents hrun, answer_run_withoutEvents hrun] at hanswer
  exact hanswer.trans (answer_run_withRegistry hrun hsame)

end Session

namespace Session

/-- Two steps whose order does not matter: each is answered the same in either place, and what
they leave together differs in the order of the event log alone. -/
structure Swappable (session : Session) (a b : Step) : Prop where
  first : ((session.after b).answer a).withoutEvents = (session.answer a).withoutEvents
  second : ((session.after a).answer b).withoutEvents = (session.answer b).withoutEvents
  last : ((session.after b).after a).withoutEvents = ((session.after a).after b).withoutEvents
  events : ((session.after b).after a).control.events.Perm
    ((session.after a).after b).control.events

theorem Swappable.symm {session : Session} {a b : Step} (h : session.Swappable a b) :
    session.Swappable b a :=
  ⟨h.second, h.first, h.last.symm, h.events.symm⟩

/-- An accepted call adds its event to the log, and a refused one nothing. -/
theorem events_after_call (session : Session) (call : GovernanceCall) :
    (session.after call.step).control.events = session.control.events
      ++ if session.control.authority call.origin then [call.event] else [] := by
  rw [after, step_call]
  split
  · rfl
  · exact (List.append_nil _).symm

theorem events_after_run {step : Step} (hrun : step.isRun = true) (session : Session) :
    (session.after step).control.events = session.control.events := by
  cases step with
  | run mode tx nonce => rw [after, control_step]; rfl
  | _ => cases hrun

theorem Swappable.calls {session : Session} {a b : GovernanceCall}
    (h : a.deployer ≠ b.deployer ∨ session.control.authority a.origin = false
      ∨ session.control.authority b.origin = false ∨ a.grants = b.grants) :
    session.Swappable a.step b.step := by
  have hfirst := session.authority_after b.isRebuild_step
  have hsecond := session.authority_after a.isRebuild_step
  refine ⟨answer_call_congr hfirst a, answer_call_congr hsecond b, after_calls h, ?_⟩
  rw [events_after_call, events_after_call, events_after_call, events_after_call, hfirst, hsecond,
    List.append_assoc, List.append_assoc]
  exact List.perm_append_comm.append_left session.control.events

theorem Swappable.callRun {session : Session} {call : GovernanceCall} {step : Step}
    (hrun : step.isRun = true) (hcall : step.call? = none) (hrebuild : step.isRebuild = false)
    (hcreator : step.creator? ≠ some call.deployer) : session.Swappable call.step step := by
  refine ⟨answer_call_congr (session.authority_after hrebuild) call, ?_,
    after_call_after hcall hrebuild hcreator, ?_⟩
  · rw [answer_run_after_call hrun hcreator]
  · rw [events_after_call, events_after_run hrun, events_after_run hrun, events_after_call,
      session.authority_after hrebuild]

end Session

/-! ## Runs -/

namespace Step

/-- Whether a step bears on an account: a call on it, a creation by a sender whose account it is,
or a new control, which may hold anyone. -/
def concerns (account : Account) : Step → Bool
  | authorize _ deployer => deployer == account
  | revoke _ deployer => deployer == account
  | run _ tx _ => tx.isCreation && Account.ofAddress tx.caller == account
  | rebuild _ _ => true
  | _ => false

/-- The steps that are no calls, and for each account those that concern it. -/
def view : Option Account → Step → Bool
  | none, step => step.call?.isNone
  | some deployer, step => step.concerns deployer

/-- A list of steps with its governance calls in another order.  The other steps stay in order,
and so do the steps that concern any one account. -/
structure Reordered (steps reordered : List Step) : Prop where
  others : reordered.filter (fun step => step.call?.isNone)
    = steps.filter fun step => step.call?.isNone
  concerning : ∀ account, reordered.filter (concerns account) = steps.filter (concerns account)

variable {steps reordered : List Step} {step : Step}

theorem exists_view (step : Step) : ∃ i, step.view i = true := by
  cases hcall : step.call? with
  | none => exact ⟨none, by rw [view, hcall]; rfl⟩
  | some call =>
    refine ⟨some call.deployer, ?_⟩
    cases step with
    | authorize origin deployer => cases hcall; exact beq_self_eq_true deployer
    | revoke origin deployer => cases hcall; exact beq_self_eq_true deployer
    | _ => cases hcall

theorem Reordered.shuffled (h : Reordered steps reordered) : Shuffled view steps reordered := by
  refine .of_filter_eq exists_view fun i => ?_
  cases i with
  | none => exact h.others.symm
  | some deployer => exact (h.concerning deployer).symm

theorem not_concerns (hcall : step.call? = none) {account : Account}
    (h : step.concerns account = false) :
    step.isRebuild = false ∧ step.creator? ≠ some account := by
  cases step with
  | authorize origin deployer => cases hcall
  | revoke origin deployer => cases hcall
  | rebuild authority genesis => cases h
  | run mode tx nonce =>
    refine ⟨rfl, fun hcreator => ?_⟩
    simp only [creator?] at hcreator
    split at hcreator
    next hcreation =>
      simp only [concerns, hcreation, Option.some.inj hcreator, Bool.true_and,
        beq_self_eq_true] at h
      cases h
    next => cases hcreator
  | _ => exact ⟨rfl, fun hcreator => by cases hcreator⟩

end Step

namespace GovernanceCall

theorem concerns_step (call : GovernanceCall) (account : Account) :
    call.step.concerns account = (call.deployer == account) := by
  obtain ⟨origin, deployer, grants⟩ := call
  cases grants <;> rfl

theorem isRun_step (call : GovernanceCall) : call.step.isRun = false := by
  obtain ⟨origin, deployer, grants⟩ := call
  cases grants <;> rfl

end GovernanceCall

namespace Session

/-- The transactions of a run, with what they are answered and what they report. -/
def runs (session : Session) (steps : List Step) : List (Step × Traced Answer) :=
  (steps.zip (session.steps steps).1).filter fun taken => taken.1.isRun

theorem runs_cons_of_run {step : Step} (h : step.isRun = true) (session : Session)
    (rest : List Step) :
    session.runs (step :: rest) = (step, session.answer step) :: (session.after step).runs rest :=
  List.filter_cons_of_pos h

theorem runs_cons_of_not_run {step : Step} (h : step.isRun = false) (session : Session)
    (rest : List Step) : session.runs (step :: rest) = (session.after step).runs rest :=
  List.filter_cons_of_neg (by rw [h]; decide)

/-- Runs that end alike: with the same answers to their transactions, and in sessions that
differ in their event logs alone. -/
structure EndAlike (session other : Session) (steps reordered : List Step) : Prop where
  runs : session.runs steps = other.runs reordered
  last : (session.steps steps).2.withoutEvents = (other.steps reordered).2.withoutEvents

theorem EndAlike.cons {session other : Session} (h : session.withoutEvents = other.withoutEvents)
    {step : Step} {steps reordered : List Step}
    (hrest : EndAlike (session.after step) (other.after step) steps reordered) :
    EndAlike session other (step :: steps) (step :: reordered) := by
  refine ⟨?_, hrest.last⟩
  cases hrun : step.isRun with
  | true =>
    have hanswer := answer_congr h step
    rw [answer_run_withoutEvents hrun, answer_run_withoutEvents hrun] at hanswer
    rw [runs_cons_of_run hrun, runs_cons_of_run hrun, hanswer, hrest.runs]
  | false => rw [runs_cons_of_not_run hrun, runs_cons_of_not_run hrun, hrest.runs]

theorem EndAlike.of_eq {session other : Session} (h : session.withoutEvents = other.withoutEvents)
    (steps : List Step) : EndAlike session other steps steps := by
  induction steps generalizing session other with
  | nil => exact ⟨rfl, h⟩
  | cons step rest ih => exact .cons h (ih (after_congr h step))

/-- A call changes places with a step that does not concern its account. -/
theorem EndAlike.call_other {session other : Session}
    (h : session.withoutEvents = other.withoutEvents) {call : GovernanceCall} {step : Step}
    (hcall : step.call? = none) (hstep : step.concerns call.deployer = false)
    (rest : List Step) :
    EndAlike session other (call.step :: step :: rest) (step :: call.step :: rest) := by
  obtain ⟨hrebuild, hcreator⟩ := Step.not_concerns hcall hstep
  have hafter : ((session.after call.step).after step).withoutEvents
      = ((other.after step).after call.step).withoutEvents := by
    rw [← after_call_after hcall hrebuild hcreator]
    exact after_congr (after_congr h step) call.step
  have hrest := EndAlike.of_eq hafter rest
  refine ⟨?_, hrest.last⟩
  rw [runs_cons_of_not_run call.isRun_step]
  cases hrun : step.isRun with
  | true =>
    have hanswer := answer_congr h step
    rw [answer_run_withoutEvents hrun, answer_run_withoutEvents hrun] at hanswer
    rw [runs_cons_of_run hrun, runs_cons_of_run hrun, runs_cons_of_not_run call.isRun_step,
      answer_run_after_call hrun hcreator, hanswer, hrest.runs]
  | false =>
    rw [runs_cons_of_not_run hrun, runs_cons_of_not_run hrun,
      runs_cons_of_not_run call.isRun_step, hrest.runs]

theorem EndAlike.symm {session other : Session} {steps reordered : List Step}
    (h : EndAlike session other steps reordered) : EndAlike other session reordered steps :=
  ⟨h.runs.symm, h.last.symm⟩

theorem EndAlike.swap {session other : Session}
    (h : session.withoutEvents = other.withoutEvents) {a b : Step} (rest : List Step)
    (hapart : ∀ i, a.view i = true → b.view i = false) :
    EndAlike session other (a :: b :: rest) (b :: a :: rest) := by
  cases ha : a.call? with
  | some call =>
    obtain rfl := GovernanceCall.step_of_call? ha
    have hb := hapart (some call.deployer)
      ((call.concerns_step call.deployer).trans (beq_self_eq_true _))
    cases hcall : b.call? with
    | none => exact .call_other h hcall hb rest
    | some later =>
      obtain rfl := GovernanceCall.step_of_call? hcall
      have hne : later.deployer ≠ call.deployer := by
        rw [Step.view, later.concerns_step] at hb
        exact ne_of_beq_false hb
      have hafter : ((session.after call.step).after later.step).withoutEvents
          = ((other.after later.step).after call.step).withoutEvents := by
        rw [← after_calls (.inl hne.symm)]
        exact after_congr (after_congr h later.step) call.step
      have hrest := EndAlike.of_eq hafter rest
      refine ⟨?_, hrest.last⟩
      rw [runs_cons_of_not_run call.isRun_step, runs_cons_of_not_run later.isRun_step,
        runs_cons_of_not_run later.isRun_step, runs_cons_of_not_run call.isRun_step, hrest.runs]
  | none =>
    -- Of two steps that are in no view together, one is a call.
    have hb : b.view none = false := hapart none (by rw [Step.view, ha]; rfl)
    obtain ⟨call, hcall⟩ : ∃ call, b.call? = some call :=
      Option.isSome_iff_exists.mp (by rw [← Option.not_isNone, ← Step.view, hb]; rfl)
    obtain rfl := GovernanceCall.step_of_call? hcall
    have hdeployer : call.step.concerns call.deployer = true :=
      (call.concerns_step call.deployer).trans (beq_self_eq_true _)
    have hstep : a.concerns call.deployer = false := by
      refine Bool.eq_false_iff.mpr fun hconcerns => ?_
      have hhidden : call.step.concerns call.deployer = false :=
        hapart (some call.deployer) hconcerns
      rw [hdeployer] at hhidden
      cases hhidden
    exact (EndAlike.call_other h.symm ha hstep rest).symm

/-- By induction on how the lists differ. -/
theorem EndAlike.of_shuffled {steps reordered : List Step}
    (hshuffled : Shuffled Step.view steps reordered) {session other : Session}
    (h : session.withoutEvents = other.withoutEvents) :
    EndAlike session other steps reordered := by
  induction hshuffled generalizing session other with
  | nil => exact ⟨rfl, h⟩
  | cons step _ ih => exact .cons h (ih (after_congr h step))
  | swap a b rest apart => exact .swap h rest apart
  | trans _ _ ih₁ ih₂ =>
    have hfirst := @ih₁ session session rfl
    have hsecond := ih₂ h
    exact ⟨hfirst.runs.trans hsecond.runs, hfirst.last.trans hsecond.last⟩

end Session

/-! ## Independent steps -/

/-- Steps that do not depend on each other under an authority: governance calls that are on
different accounts, or ask for the same, or of which one is refused; and a call beside a
transaction that creates no contract, or is sent by another account's address. -/
inductive Step.Independent (authority : Authority) : Step → Step → Prop where
  | calls (a b : GovernanceCall)
      (apart : a.deployer ≠ b.deployer ∨ authority a.origin = false
        ∨ authority b.origin = false ∨ a.grants = b.grants) :
      Independent authority a.step b.step
  | callRun (call : GovernanceCall) (mode : RunMode) (tx : Transaction) (nonce : Option Nat)
      (apart : tx.isCreation = true → Account.ofAddress tx.caller ≠ call.deployer) :
      Independent authority call.step (.run mode tx nonce)
  | runCall (call : GovernanceCall) (mode : RunMode) (tx : Transaction) (nonce : Option Nat)
      (apart : tx.isCreation = true → Account.ofAddress tx.caller ≠ call.deployer) :
      Independent authority (.run mode tx nonce) call.step

theorem Step.creator?_run_ne {mode : RunMode} {tx : Transaction} {nonce : Option Nat}
    {deployer : Account}
    (h : tx.isCreation = true → Account.ofAddress tx.caller ≠ deployer) :
    (Step.run mode tx nonce).creator? ≠ some deployer := by
  intro hcreator
  simp only [creator?] at hcreator
  split at hcreator
  next hcreation => exact h hcreation (Option.some.inj hcreator)
  next => cases hcreator

theorem Session.Swappable.of_independent {session : Session} {a b : Step}
    (h : Step.Independent session.control.authority a b) : session.Swappable a b := by
  cases h with
  | calls a b apart => exact .calls apart
  | callRun call mode tx nonce apart => exact .callRun rfl rfl rfl (Step.creator?_run_ne apart)
  | runCall call mode tx nonce apart =>
    exact (Swappable.callRun rfl rfl rfl (Step.creator?_run_ne apart)).symm

/-- **Independent steps commute.**  Neighbouring steps that are independent may change places:
each is answered as before, but for the number of events it may tell, and the registry, entry
by entry, and the world end up the same, as does the event log up to its order.  So in a whole
run the governance calls may be put in any order that keeps the steps concerning any one
account in theirs: the registry and the world end up the same, and all transactions are
answered the same. -/
theorem independent_steps_commute (session : Session) :
    (∀ a b, Step.Independent session.control.authority a b →
      let here := session.steps [a, b]
      let swapped := session.steps [b, a]
      swapped.1.map Traced.withoutEvents = (here.1.map Traced.withoutEvents).reverse
        ∧ swapped.2.control.registry = here.2.control.registry
        ∧ swapped.2.world = here.2.world
        ∧ swapped.2.control.events.Perm here.2.control.events)
      ∧ ∀ steps reordered, Step.Reordered steps reordered →
        (session.steps reordered).2.control.registry = (session.steps steps).2.control.registry
          ∧ (session.steps reordered).2.world = (session.steps steps).2.world
          ∧ session.runs reordered = session.runs steps := by
  constructor
  · intro a b hindependent here swapped
    have hswap := Session.Swappable.of_independent hindependent
    obtain ⟨hregistry, hworld⟩ := Session.eq_of_withoutEvents hswap.last
    have hanswers : [(session.answer b).withoutEvents, ((session.after b).answer a).withoutEvents]
        = [((session.after a).answer b).withoutEvents, (session.answer a).withoutEvents] := by
      rw [hswap.first, hswap.second]
    exact ⟨hanswers, hregistry, hworld, hswap.events⟩
  · intro steps reordered hreordered
    have halike := @Session.EndAlike.of_shuffled _ _ hreordered.shuffled session session rfl
    obtain ⟨hregistry, hworld⟩ := Session.eq_of_withoutEvents halike.last.symm
    exact ⟨hregistry, hworld, halike.runs.symm⟩

/-- Calls on two accounts and a transaction between them, in two orders. -/
theorem independent_steps_commute_around_call :
    let session : Session := { control := ⟨.stored ∅, Authority.root, []⟩ }
    let tx : Transaction := { caller := .zero, target := some .zero }
    let granted : Step := .authorize .root (.repeated 32 1)
    let withdrawn : Step := .revoke .root (.repeated 32 2)
    let sent : Step := .run .commit tx none
    Step.Independent Authority.root granted withdrawn
      ∧ (session.steps [withdrawn, granted]).2.control.registry
        = (session.steps [granted, withdrawn]).2.control.registry
      ∧ Step.Reordered [granted, sent, withdrawn] [withdrawn, granted, sent]
      ∧ session.runs [withdrawn, granted, sent] = session.runs [granted, sent, withdrawn] := by
  intro session tx granted withdrawn sent
  have hdifferent : (FixedBytes.repeated 32 1 : Account) ≠ .repeated 32 2 := by decide
  have hindependent : Step.Independent Authority.root granted withdrawn :=
    .calls ⟨.root, .repeated 32 1, true⟩ ⟨.root, .repeated 32 2, false⟩ (.inl hdifferent)
  have hreordered : Step.Reordered [granted, sent, withdrawn] [withdrawn, granted, sent] := by
    refine ⟨rfl, fun account => ?_⟩
    have hsent : sent.concerns account = false := rfl
    cases hgranted : granted.concerns account with
    | false => simp [List.filter_cons, hgranted, hsent]
    | true =>
      have hwithdrawn : withdrawn.concerns account = false := by
        obtain rfl : FixedBytes.repeated 32 1 = account := eq_of_beq hgranted
        decide
      simp [hgranted, hsent, hwithdrawn]
  have hcommute := independent_steps_commute session
  exact ⟨hindependent, (hcommute.1 granted withdrawn hindependent).2.1, hreordered,
    (hcommute.2 _ _ hreordered).2.2⟩

end CreationGate
