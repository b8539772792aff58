import CreationGate.Proofs.Membership

/-!
# A registry over a shared store

A store behind a registry may be written by others at any time.  `SetRun` says what such a
history means for the set of accounts alone: which answers are right and which accounts are
held after each access.  Every run of a stored registry is such a history, and since the
answers of a history follow from its accesses (`SetRun.functional`), a registry that holds
the same accounts as a set answers alike.
-/

namespace CreationGate

/-- A use of a registry. -/
inductive RegistryCall where
  | insert (account : Account)
  | remove (account : Account)
  | contains (account : Account)
  | members
deriving DecidableEq

/-- An access to a shared store: through the registry over it, or past it. -/
inductive StoreAccess where
  | call (call : RegistryCall)
  /-- A raw write. -/
  | put (key value : Bytes)
  /-- A raw deletion. -/
  | delete (key : Bytes)
deriving DecidableEq

/-- The answer to an access. -/
inductive AccessAnswer where
  | done
  | contains (found : Bool)
  | members (listed : List Account)
deriving DecidableEq

/-- Whether an access leaves the accounts to the registry: a raw one writes a key that is no
account's. -/
def StoreAccess.Foreign : StoreAccess → Prop
  | call _ => True
  | put key _ => Key.owners key = ∅
  | delete key => Key.owners key = ∅

/-! ## Runs of a registry -/

namespace Registry

/-- The answer to a call, and the registry after it. -/
def call (registry : Registry) : RegistryCall → AccessAnswer × Registry
  | .insert account => (.done, registry.insert account)
  | .remove account => (.done, registry.remove account)
  | .contains account => (.contains (registry.contains account), registry)
  | .members => (.members registry.members, registry)

/-- The answer to an access, and the registry after it. -/
def access (registry : Registry) : StoreAccess → AccessAnswer × Registry
  | .call call => registry.call call
  | .put key value => (.done, registry.mapStore fun store => store.insert key value)
  | .delete key => (.done, registry.mapStore fun store => store.erase key)

/-- The answers to a list of accesses, and the registry after them. -/
def run (registry : Registry) : List StoreAccess → List AccessAnswer × Registry
  | [] => ([], registry)
  | access :: rest =>
    let taken := registry.access access
    let (answers, last) := taken.2.run rest
    (taken.1 :: answers, last)

/-- A stored registry stays one, and a set stays a set. -/
theorem isSome_store?_access (registry : Registry) (access : StoreAccess) :
    (registry.access access).2.store?.isSome = registry.store?.isSome := by
  cases registry with
  | memory members =>
    cases access with
    | call call => cases call <;> rfl
    | put key value => rfl
    | delete key => rfl
  | stored store =>
    cases access with
    | call call => cases call <;> rfl
    | put key value => rfl
    | delete key => rfl

end Registry

/-! ## Histories of a set of accounts -/

/-- One access as a set of accounts sees it. -/
inductive SetStep : Set Account → StoreAccess → AccessAnswer → Set Account → Prop where
  | insert (held : Set Account) (account : Account) :
      SetStep held (.call (.insert account)) .done (held ∪ {account})
  | remove (held : Set Account) (account : Account) :
      SetStep held (.call (.remove account)) .done (held \ {account})
  | contains {held : Set Account} {account : Account} {found : Bool}
      (exact : found = true ↔ account ∈ held) :
      SetStep held (.call (.contains account)) (.contains found) held
  | members {held : Set Account} {listed : List Account}
      (ascending : listed.Pairwise fun a b => compare a.bytes b.bytes = .lt)
      (exact : ∀ account, account ∈ listed ↔ account ∈ held) :
      SetStep held (.call .members) (.members listed) held
  | put (held : Set Account) (key value : Bytes) :
      SetStep held (.put key value) .done (held ∪ Key.owners key)
  | delete (held : Set Account) (key : Bytes) :
      SetStep held (.delete key) .done (held \ Key.owners key)

/-- A list of accesses with their answers, from one set of accounts to another. -/
inductive SetRun : Set Account → List StoreAccess → List AccessAnswer → Set Account → Prop where
  | nil (held : Set Account) : SetRun held [] [] held
  | cons {held next last : Set Account} {access : StoreAccess} {accesses : List StoreAccess}
      {answer : AccessAnswer} {answers : List AccessAnswer}
      (step : SetStep held access answer next) (rest : SetRun next accesses answers last) :
      SetRun held (access :: accesses) (answer :: answers) last

/-- The answer to an access, and what is held after it, follow from what was held before. -/
theorem SetStep.functional {held next₁ next₂ : Set Account} {access : StoreAccess}
    {answer₁ answer₂ : AccessAnswer} (h₁ : SetStep held access answer₁ next₁)
    (h₂ : SetStep held access answer₂ next₂) : answer₁ = answer₂ ∧ next₁ = next₂ := by
  cases h₁ with
  | insert => cases h₂; exact ⟨rfl, rfl⟩
  | remove => cases h₂; exact ⟨rfl, rfl⟩
  | put => cases h₂; exact ⟨rfl, rfl⟩
  | delete => cases h₂; exact ⟨rfl, rfl⟩
  | contains exact₁ =>
    cases h₂ with
    | contains exact₂ =>
      have hfound := Bool.eq_iff_iff.mpr (exact₁.trans exact₂.symm)
      exact ⟨congrArg AccessAnswer.contains hfound, rfl⟩
  | members ascending₁ exact₁ =>
    cases h₂ with
    | members ascending₂ exact₂ =>
      have hlisted := SortedMap.eq_of_ascending (f := FixedBytes.bytes) ascending₁ ascending₂
        fun account => (exact₁ account).trans (exact₂ account).symm
      exact ⟨congrArg AccessAnswer.members hlisted, rfl⟩

/-- The answers to a list of accesses follow from what was held at first. -/
theorem SetRun.functional {held last₁ last₂ : Set Account} {accesses : List StoreAccess}
    {answers₁ answers₂ : List AccessAnswer} (h₁ : SetRun held accesses answers₁ last₁)
    (h₂ : SetRun held accesses answers₂ last₂) : answers₁ = answers₂ := by
  induction h₁ generalizing answers₂ last₂ with
  | nil => cases h₂; rfl
  | cons step _ ih =>
    cases h₂ with
    | cons step₂ rest₂ =>
      obtain ⟨rfl, rfl⟩ := step.functional step₂
      rw [ih rest₂]

/-! ## Every run is a history -/

/-- A call of a registry of either kind is a step of the set it stands for. -/
theorem Registry.setStep_call (registry : Registry) (call : RegistryCall) :
    SetStep registry.accounts (.call call) (registry.call call).1
      (registry.call call).2.accounts := by
  cases call with
  | insert account =>
    rw [Registry.call, accounts_insert]
    exact .insert _ _
  | remove account =>
    rw [Registry.call, accounts_remove]
    exact .remove _ _
  | contains account => exact .contains contains_iff
  | members => exact .members (members_ascending registry) fun account => mem_members

/-- An access is a step of the set that the registry stands for, unless it writes an
account's key past a registry that has no store. -/
theorem Registry.setStep_access {registry : Registry} {access : StoreAccess}
    (h : registry.store?.isSome = true ∨ access.Foreign) :
    SetStep registry.accounts access (registry.access access).1
      (registry.access access).2.accounts := by
  cases access with
  | call call => exact setStep_call registry call
  | put key value =>
    cases registry with
    | stored store =>
      have hstep := SetStep.put (stored store).accounts key value
      rw [← accounts_put] at hstep
      exact hstep
    | memory members =>
      have hforeign : Key.owners key = ∅ := h.resolve_left Bool.false_ne_true
      have hstep := SetStep.put (memory members).accounts key value
      rw [hforeign, Set.union_empty] at hstep
      exact hstep
  | delete key =>
    cases registry with
    | stored store =>
      have hstep := SetStep.delete (stored store).accounts key
      rw [← accounts_delete] at hstep
      exact hstep
    | memory members =>
      have hforeign : Key.owners key = ∅ := h.resolve_left Bool.false_ne_true
      have hstep := SetStep.delete (memory members).accounts key
      rw [hforeign, Set.sdiff_empty] at hstep
      exact hstep

theorem Registry.setRun_run (registry : Registry) (accesses : List StoreAccess)
    (h : ∀ access ∈ accesses, registry.store?.isSome = true ∨ access.Foreign) :
    SetRun registry.accounts accesses (registry.run accesses).1
      (registry.run accesses).2.accounts := by
  induction accesses generalizing registry with
  | nil => exact .nil _
  | cons access rest ih =>
    refine .cons (setStep_access (h access List.mem_cons_self)) (ih _ fun later hlater => ?_)
    rw [isSome_store?_access]
    exact h later (List.mem_cons_of_mem _ hlater)

/-- A set made of a list holds the accounts of the list. -/
theorem AccountSet.mem_accounts_ofList {listed : List Account} {account : Account} :
    account ∈ (Registry.memory (AccountSet.ofList listed)).accounts ↔ account ∈ listed := by
  rw [AccountSet.ofList, ← Registry.insertAll_memory, Registry.mem_accounts_insertAll]
  exact or_iff_left_of_imp fun h => absurd h List.not_mem_nil

/-- **A stored registry is a set of accounts.**  Whatever its store holds at first, every list
of calls and raw writes is answered as the set of the accounts whose key is present, and
changes it so; a key is that of one account at most.  A set made of the first members answers
every such list alike, as long as raw writes keep away from the keys of accounts. -/
theorem stored_registry_refines_set (store : ByteStore) (accesses : List StoreAccess) :
    SetRun (Registry.stored store).accounts accesses ((Registry.stored store).run accesses).1
        ((Registry.stored store).run accesses).2.accounts
      ∧ (∀ key, (Key.owners key).Subsingleton)
      ∧ ((∀ access ∈ accesses, access.Foreign) →
        ((Registry.stored store).run accesses).1
          = ((Registry.memory (.ofList (Registry.stored store).members)).run accesses).1) := by
  have hstored := Registry.setRun_run (.stored store) accesses fun access _ => .inl rfl
  refine ⟨hstored, Key.owners_subsingleton, fun hforeign => ?_⟩
  have hmemory := Registry.setRun_run (.memory (.ofList (Registry.stored store).members))
    accesses fun access h => .inr (hforeign access h)
  -- Both runs are histories of one set, and a history has one list of answers.
  have hseed : (Registry.memory (.ofList (Registry.stored store).members)).accounts
      = (Registry.stored store).accounts := by
    ext account
    rw [AccountSet.mem_accounts_ofList, Registry.mem_members]
  rw [hseed] at hmemory
  exact hstored.functional hmemory

/-- A store in which a member's key has a value, and foreign keys come and go between calls. -/
theorem stored_registry_refines_set_beside_foreign_keys :
    let account : Account := .repeated 32 7
    let store : ByteStore := SortedMap.insert ∅ (Key.ofAccount account) [1]
    let accesses : List StoreAccess := [.put [1] [2], .call .members,
      .call (.remove account), .delete [1], .call (.contains account)]
    (∀ access ∈ accesses, access.Foreign) ∧
      ((Registry.stored store).run accesses).1
        = ((Registry.memory (.ofList (Registry.stored store).members)).run accesses).1 := by
  intro account store accesses
  have hshort : Key.owners [1] = ∅ := Key.owners_eq_empty_of_length (by
    unfold Key.length
    rw [List.length_singleton]
    omega)
  have hforeign : ∀ access ∈ accesses, access.Foreign := by
    intro access h
    simp only [accesses, List.mem_cons, List.not_mem_nil, or_false] at h
    rcases h with rfl | rfl | rfl | rfl | rfl
    · exact hshort
    · trivial
    · trivial
    · exact hshort
    · trivial
  exact ⟨hforeign, (stored_registry_refines_set store accesses).2.2 hforeign⟩

end CreationGate
