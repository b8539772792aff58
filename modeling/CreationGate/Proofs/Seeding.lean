import CreationGate.Proofs.AuditTrail

/-!
# Seeding is authorizing without events

A genesis configuration writes its accounts straight into the registry, and a chain that is
already running authorizes them one call at a time.  Both come down to `Registry.insertAll`,
whose outcome follows from the set of the accounts alone (`Registry.insertAll_congr`), since
every one of them is written with the same value.
-/

namespace CreationGate

/-! ## Insertion of a list -/

namespace Registry

variable {registry : Registry} {accounts others : List Account}

theorem insertAll_stored (accounts : List Account) (store : ByteStore) :
    (stored store).insertAll accounts
      = stored (accounts.foldl (fun store account => store.insert (Key.ofAccount account) [])
          store) := by
  induction accounts generalizing store with
  | nil => rfl
  | cons account rest ih => exact ih _

/-- What a list leaves in a registry does not depend on its order and its repetitions. -/
theorem insertAll_congr (h : ∀ account, account ∈ accounts ↔ account ∈ others) :
    registry.insertAll accounts = registry.insertAll others := by
  cases registry with
  | memory members =>
    rw [insertAll_memory, insertAll_memory]
    have hlisted : ∀ account, account ∈ accounts.map id ↔ account ∈ others.map id := by
      simpa only [List.map_id] using h
    exact congrArg memory (SortedMap.foldl_insert_const_congr hlisted () members)
  | stored store =>
    rw [insertAll_stored, insertAll_stored]
    have hlisted : ∀ key, key ∈ accounts.map Key.ofAccount ↔ key ∈ others.map Key.ofAccount := by
      intro key
      simp only [List.mem_map, h]
    exact congrArg stored (SortedMap.foldl_insert_const_congr hlisted [] store)

theorem insertAll_append (registry : Registry) (accounts others : List Account) :
    registry.insertAll (accounts ++ others) = (registry.insertAll accounts).insertAll others :=
  List.foldl_append

theorem insertAll_insertAll (registry : Registry) (accounts : List Account) :
    (registry.insertAll accounts).insertAll accounts = registry.insertAll accounts := by
  rw [← insertAll_append]
  exact insertAll_congr fun account => by rw [List.mem_append, or_self]

end Registry

/-! ## Calls for a list -/

namespace Control

/-- Asks for the authorization of each account of a list. -/
def authorizeAll (control : Control) (origin : Origin) (deployers : List Account) : Control :=
  deployers.foldl (fun control deployer => (control.authorize origin deployer).value.2) control

theorem authorizeAll_append (control : Control) (origin : Origin)
    (first later : List Account) : control.authorizeAll origin (first ++ later)
      = (control.authorizeAll origin first).authorizeAll origin later :=
  List.foldl_append

/-- Where the authority accepts the origin, the calls insert the accounts and record an event
for each. -/
theorem authorizeAll_of_accepted {control : Control} {origin : Origin}
    (h : control.authority origin = true) (deployers : List Account) :
    control.authorizeAll origin deployers = { control with
      registry := control.registry.insertAll deployers
      events := control.events ++ deployers.map Event.authorized } := by
  induction deployers generalizing control with
  | nil =>
    rw [List.map_nil, List.append_nil]
    rfl
  | cons deployer rest ih =>
    have hcall : (control.authorize origin deployer).value.2 = { control with
        registry := control.registry.insert deployer
        events := control.events ++ [.authorized deployer] } := by
      simp only [authorize, h, if_true]
      rfl
    have hafter : (control.authorize origin deployer).value.2.authority origin = true := by
      rw [hcall]
      exact h
    have hrest := ih hafter
    rw [hcall] at hrest
    rw [authorizeAll, List.foldl_cons, hcall]
    refine hrest.trans ?_
    rw [List.append_assoc]
    rfl

end Control

/-- **Seeding is authorizing without events.**  A control over a registry seeded from a genesis
configuration is, events apart, the control that a new one becomes when the chain itself
authorizes the listed accounts and then the accounts of the listed addresses; all these calls
are accepted.  Its members are those of before and those listed, in ascending order.  Any other
configuration that lists the same accounts leaves the same registry, entry by entry, and
seeding it once more changes nothing. -/
theorem seeding_is_authorization_without_events (registry : Registry) (authority : Authority)
    (genesis : Genesis) (hroot : authority .root = true) :
    let seeded := (Control.ofGenesis registry authority genesis).value
    let authorized := ((Control.create registry authority none).authorizeAll .root
      genesis.deployers).authorizeAll .root (genesis.addresses.map Account.ofAddress)
    seeded.events = []
      ∧ seeded.registry = authorized.registry
      ∧ seeded.authority = authorized.authority
      ∧ authorized.events = (genesis.deployers.map Event.authorized)
          ++ (genesis.addresses.map Account.ofAddress).map Event.authorized
      ∧ seeded.registry.members.Pairwise (fun a b => compare a.bytes b.bytes = .lt)
      ∧ (∀ account, account ∈ seeded.registry.members ↔ account ∈ registry.members
          ∨ account ∈ genesis.deployers
          ∨ ∃ address ∈ genesis.addresses, Account.ofAddress address = account)
      ∧ (∀ other : Genesis,
          (∀ account, account ∈ other.accounts ↔ account ∈ genesis.accounts) →
          (Control.ofGenesis registry authority other).value.registry = seeded.registry)
      ∧ (genesis.seed seeded.registry).value = seeded.registry := by
  intro seeded authorized
  have hseeded : seeded.registry = registry.insertAll genesis.accounts := rfl
  have hauthorized : authorized = ⟨registry.insertAll genesis.accounts, authority,
      (genesis.deployers.map Event.authorized)
        ++ (genesis.addresses.map Account.ofAddress).map Event.authorized⟩ := by
    have hnew : (Control.create registry authority none).authority .root = true := hroot
    refine (Control.authorizeAll_append _ _ _ _).symm.trans ?_
    rw [Control.authorizeAll_of_accepted hnew, List.map_append]
    rfl
  have hmembers : ∀ account, account ∈ seeded.registry.members ↔ account ∈ registry.members
      ∨ account ∈ genesis.deployers
      ∨ ∃ address ∈ genesis.addresses, Account.ofAddress address = account := by
    intro account
    rw [Registry.mem_members, hseeded, Registry.mem_accounts_insertAll, Genesis.mem_accounts,
      Registry.mem_members, or_comm]
  refine ⟨rfl, ?_, ?_, ?_, seeded.registry.members_ascending, hmembers, ?_, ?_⟩
  · rw [hauthorized, hseeded]
  · rw [hauthorized]
    rfl
  · rw [hauthorized]
  · intro other hsame
    exact Registry.insertAll_congr hsame
  · exact registry.insertAll_insertAll genesis.accounts

/-- An address listed twice, whose account is listed too and is a member already, with a value
in the store. -/
theorem seeding_of_repeated_address :
    let account := Account.ofAddress .zero
    let store : ByteStore := SortedMap.insert ∅ (Key.ofAccount account) [1]
    let genesis : Genesis := ⟨[account], [.zero, .zero]⟩
    Authority.root .root = true
      ∧ (Control.ofGenesis (.stored store) Authority.root ⟨[], [.zero]⟩).value.registry
        = (Control.ofGenesis (.stored store) Authority.root genesis).value.registry := by
  intro account store genesis
  obtain ⟨-, -, -, -, -, -, hsame, -⟩ :=
    seeding_is_authorization_without_events (.stored store) Authority.root genesis rfl
  refine ⟨rfl, hsame ⟨[], [.zero]⟩ fun other => ?_⟩
  rw [Genesis.mem_accounts, Genesis.mem_accounts]
  simp [genesis, account, eq_comm]

end CreationGate
