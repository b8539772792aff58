import CreationGate.Governance.Origin

/-!
# Traces

What a run reports while it works.  A `Traced` value carries its entries in order, and
running one traced computation after another appends them.
-/

namespace CreationGate

/-- The answer of the admission check. -/
inductive Verdict where
  | admitted
  | denied
deriving DecidableEq

namespace Verdict

/-- The verdict on what is held, or is not. -/
def ofBool : Bool → Verdict
  | true => admitted
  | false => denied

/-- Whether the verdict lets a creation through. -/
def isAdmit : Verdict → Bool
  | admitted => true
  | denied => false

/-- The name of the verdict. -/
def text : Verdict → String
  | admitted => "Admit"
  | denied => "Deny"

end Verdict

/-- How urgent an entry is. -/
inductive LogLevel where
  | debug
  | info
  | warn
deriving DecidableEq

/-- One reported fact. -/
inductive LogEntry where
  | deployerAuthorized (deployer : Account)
  | deployerRevoked (deployer : Account)
  | callRejected (origin : Origin)
  | deployerChecked (identity : Account) (verdict : Verdict)
  | registrySeeded (deployers addresses : Nat)
  | creationRejected (caller : Address) (account : Account)
deriving DecidableEq

/-- The part of the program that reports an entry. -/
inductive LogSource where
  | control
  | gate
  | genesis
  | execution
deriving DecidableEq

/-- An origin as it is written in an entry. -/
def Origin.logText : Origin → String
  | root => "Root"
  | signed signer => "Signed(AccountId(" ++ signer.hex ++ "))"
  | unsigned => "None"

namespace LogEntry

/-- The level of an entry: governance reports what it did, refusals are warnings. -/
def level : LogEntry → LogLevel
  | deployerAuthorized _ => .info
  | deployerRevoked _ => .info
  | callRejected _ => .warn
  | deployerChecked _ _ => .debug
  | registrySeeded _ _ => .info
  | creationRejected _ _ => .warn

/-- The part of the program that an entry comes from. -/
def source : LogEntry → LogSource
  | deployerAuthorized _ => .control
  | deployerRevoked _ => .control
  | callRejected _ => .control
  | deployerChecked _ _ => .gate
  | registrySeeded _ _ => .genesis
  | creationRejected _ _ => .execution

/-- The fixed text of an entry. -/
def message : LogEntry → String
  | deployerAuthorized _ => "Deployer authorized"
  | deployerRevoked _ => "Deployer revoked"
  | callRejected _ => "Rejected governance call from non-authority origin"
  | deployerChecked _ _ => "Checked deployer"
  | registrySeeded _ _ => "Seeded authorized deployers"
  | creationRejected _ _ => "Rejected contract creation from unauthorized deployer"

/-- What an entry names, with its value. -/
def fields : LogEntry → List (String × String)
  | deployerAuthorized deployer => [("deployer", deployer.hex)]
  | deployerRevoked deployer => [("deployer", deployer.hex)]
  | callRejected origin => [("origin", origin.logText)]
  | deployerChecked identity verdict => [("identity", identity.hex), ("verdict", verdict.text)]
  | registrySeeded deployers addresses =>
    [("deployers", toString deployers), ("addresses", toString addresses)]
  | creationRejected caller account =>
    [("caller", caller.checksummed), ("account", account.hex)]

end LogEntry

/-- A value together with what was reported while it was computed. -/
structure Traced (α : Type) where
  value : α
  /-- The entries, oldest first. -/
  log : List LogEntry

namespace Traced

variable {α β : Type}

instance : Monad Traced where
  pure a := ⟨a, []⟩
  bind x f := ⟨(f x.value).value, x.log ++ (f x.value).log⟩

@[simp] theorem value_pure (a : α) : (pure a : Traced α).value = a := rfl

@[simp] theorem log_pure (a : α) : (pure a : Traced α).log = [] := rfl

@[simp] theorem value_bind (x : Traced α) (f : α → Traced β) :
    (x >>= f).value = (f x.value).value := rfl

@[simp] theorem log_bind (x : Traced α) (f : α → Traced β) :
    (x >>= f).log = x.log ++ (f x.value).log := rfl

/-- Reports one entry. -/
def report (entry : LogEntry) : Traced Unit := ⟨(), [entry]⟩

@[simp] theorem log_report (entry : LogEntry) : (report entry).log = [entry] := rfl

end Traced

end CreationGate
