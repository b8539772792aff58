import CreationGate.Proofs.History
import Mathlib.Data.List.TFAE

/-!
# The paths to admission agree

Whether an address may create contracts can be asked in many ways: of the control, of the
gate, by looking through the members, through the origin of a call, or by sending a creation.
All of them come down to whether the registry holds the account of the address.
-/

namespace CreationGate

namespace Gate

theorem check_eq_admitted_iff {gate : Gate} {account : Account} :
    (gate.check account).value = .admitted ↔ account ∈ gate.registry.accounts := by
  rw [← Registry.contains_iff, check]
  cases gate.registry.contains account <;> simp [Verdict.ofBool]

/-! ## The account of an address as signer -/

theorem ensureAddressOrigin_of_unsigned {gate : Gate} {address : Address} {origin : Origin}
    (h : origin.signer? = none) :
    (gate.ensureAddressOrigin address origin).value = .error .notSigned := by
  unfold ensureAddressOrigin
  rw [h]
  rfl

theorem ensureAddressOrigin_of_mismatch {gate : Gate} {address : Address} {signer : Account}
    (h : signer ≠ Account.ofAddress address) :
    (gate.ensureAddressOrigin address (.signed signer)).value
      = .error (.addressMismatch address (Account.ofAddress address) signer) := by
  simp only [ensureAddressOrigin, Origin.signer?]
  rw [if_neg h]
  rfl

theorem ensureAddressOrigin_of_held {gate : Gate} {address : Address}
    (h : Account.ofAddress address ∈ gate.registry.accounts) :
    (gate.ensureAddressOrigin address (.signed (Account.ofAddress address))).value
      = .ok (Account.ofAddress address) := by
  simp only [ensureAddressOrigin, Origin.signer?, if_true, Traced.value_bind,
    check_eq_admitted_iff.mpr h]
  rfl

theorem ensureAddressOrigin_of_not_held {gate : Gate} {address : Address}
    (h : Account.ofAddress address ∉ gate.registry.accounts) :
    (gate.ensureAddressOrigin address (.signed (Account.ofAddress address))).value
      = .error (.unauthorizedDeployer address (Account.ofAddress address)) := by
  have hdenied : (gate.check (Account.ofAddress address)).value = .denied := by
    cases hverdict : (gate.check (Account.ofAddress address)).value with
    | admitted => exact absurd (check_eq_admitted_iff.mp hverdict) h
    | denied => rfl
  simp only [ensureAddressOrigin, Origin.signer?, if_true, Traced.value_bind, hdenied]
  rfl

section Outcomes

variable {gate : Gate} {address : Address} {origin : Origin}

/-- An address, the origin of a call and what becomes of them: for each way to end, when it
does. -/
theorem ensureAddressOrigin_cases (gate : Gate) (address : Address) (origin : Origin) :
    (origin = .root ∨ origin = .unsigned)
        ∧ (gate.ensureAddressOrigin address origin).value = .error .notSigned
      ∨ (∃ signer, signer ≠ Account.ofAddress address ∧ origin = .signed signer
        ∧ (gate.ensureAddressOrigin address origin).value
          = .error (.addressMismatch address (Account.ofAddress address) signer))
      ∨ (origin = .signed (Account.ofAddress address)
        ∧ Account.ofAddress address ∉ gate.registry.accounts
        ∧ (gate.ensureAddressOrigin address origin).value
          = .error (.unauthorizedDeployer address (Account.ofAddress address)))
      ∨ origin = .signed (Account.ofAddress address)
        ∧ Account.ofAddress address ∈ gate.registry.accounts
        ∧ (gate.ensureAddressOrigin address origin).value
          = .ok (Account.ofAddress address) := by
  cases origin with
  | root => exact .inl ⟨.inl rfl, ensureAddressOrigin_of_unsigned rfl⟩
  | unsigned => exact .inl ⟨.inr rfl, ensureAddressOrigin_of_unsigned rfl⟩
  | signed signer =>
    by_cases hsigner : signer = Account.ofAddress address
    · subst hsigner
      by_cases hheld : Account.ofAddress address ∈ gate.registry.accounts
      · exact .inr (.inr (.inr ⟨rfl, hheld, ensureAddressOrigin_of_held hheld⟩))
      · exact .inr (.inr (.inl ⟨rfl, hheld, ensureAddressOrigin_of_not_held hheld⟩))
    · exact .inr (.inl ⟨signer, hsigner, rfl, ensureAddressOrigin_of_mismatch hsigner⟩)

theorem ensureAddressOrigin_eq_ok_iff {found : Account} :
    (gate.ensureAddressOrigin address origin).value = .ok found
      ↔ found = Account.ofAddress address ∧ origin = .signed (Account.ofAddress address)
        ∧ Account.ofAddress address ∈ gate.registry.accounts := by
  constructor
  · intro h
    rcases gate.ensureAddressOrigin_cases address origin with ⟨_, houtcome⟩
      | ⟨signer, _, _, houtcome⟩ | ⟨_, _, houtcome⟩ | ⟨horigin, hheld, houtcome⟩
    all_goals
      rw [houtcome] at h
      cases h
    exact ⟨rfl, horigin, hheld⟩
  · rintro ⟨rfl, rfl, hheld⟩
    exact ensureAddressOrigin_of_held hheld

theorem ensureAddressOrigin_eq_notSigned_iff :
    (gate.ensureAddressOrigin address origin).value = .error .notSigned
      ↔ origin = .root ∨ origin = .unsigned := by
  constructor
  · intro h
    rcases gate.ensureAddressOrigin_cases address origin with ⟨horigin, houtcome⟩
      | ⟨signer, _, _, houtcome⟩ | ⟨_, _, houtcome⟩ | ⟨_, _, houtcome⟩
    all_goals
      rw [houtcome] at h
      cases h
    exact horigin
  · rintro (rfl | rfl)
    · exact ensureAddressOrigin_of_unsigned rfl
    · exact ensureAddressOrigin_of_unsigned rfl

theorem ensureAddressOrigin_eq_mismatch_iff {subject : Address} {expected signer : Account} :
    (gate.ensureAddressOrigin address origin).value
        = .error (.addressMismatch subject expected signer)
      ↔ subject = address ∧ expected = Account.ofAddress address ∧ origin = .signed signer
        ∧ signer ≠ Account.ofAddress address := by
  constructor
  · intro h
    rcases gate.ensureAddressOrigin_cases address origin with ⟨_, houtcome⟩
      | ⟨found, hfound, horigin, houtcome⟩ | ⟨_, _, houtcome⟩ | ⟨_, _, houtcome⟩
    all_goals
      rw [houtcome] at h
      cases h
    exact ⟨rfl, rfl, horigin, hfound⟩
  · rintro ⟨rfl, rfl, rfl, hsigner⟩
    exact ensureAddressOrigin_of_mismatch hsigner

theorem ensureAddressOrigin_eq_unauthorized_iff {subject : Address} {deployer : Account} :
    (gate.ensureAddressOrigin address origin).value
        = .error (.unauthorizedDeployer subject deployer)
      ↔ subject = address ∧ deployer = Account.ofAddress address
        ∧ origin = .signed (Account.ofAddress address)
        ∧ Account.ofAddress address ∉ gate.registry.accounts := by
  constructor
  · intro h
    rcases gate.ensureAddressOrigin_cases address origin with ⟨_, houtcome⟩
      | ⟨signer, _, _, houtcome⟩ | ⟨horigin, hheld, houtcome⟩ | ⟨_, _, houtcome⟩
    all_goals
      rw [houtcome] at h
      cases h
    exact ⟨rfl, rfl, horigin, hheld⟩
  · rintro ⟨rfl, rfl, rfl, hheld⟩
    exact ensureAddressOrigin_of_not_held hheld

end Outcomes

end Gate

/-! ## Agreement -/

/-- An answer to a creation is a denial unless the account of its sender is held. -/
theorem Session.denied?_creation_eq_none_iff (session : Session) (mode : RunMode)
    {tx : Transaction} (nonce : Option Nat) (hcreation : tx.isCreation = true)
    (hfault : Validation.environmentFault session.config session.block tx = none) :
    (session.step (.run mode tx nonce)).value.1.denied? = none
      ↔ Account.ofAddress tx.caller ∈ session.control.registry.accounts := by
  have hdenied := session.denied?_run_eq_some mode (session.withNonce tx nonce) tx.caller
    (Account.ofAddress tx.caller)
  constructor
  · intro hnone
    by_contra hheld
    have hsome := hdenied.mpr ⟨hfault, ⟨hcreation, hheld⟩, rfl, rfl⟩
    rw [Session.step, hsome] at hnone
    cases hnone
  · intro hheld
    rw [Option.eq_none_iff_forall_ne_some]
    rintro ⟨caller, deployer⟩ hsome
    have hdenies := ((session.denied?_run_eq_some mode _ caller deployer).mp hsome).2.1
    exact hdenies.2 hheld

/-- **All paths to admission agree.**  After any steps, the two look-ups, the two checks of the
gate, the list of members and the origin signed by the account of an address give the same
answer, and so does a creation by this address that passes the checks of the environment.
Any other origin is turned away for what it is, whoever is a member. -/
theorem admission_paths_agree (first : Session) (history : List Step) (address : Address) :
    let now := (first.steps history).2
    let gate := now.control.gate
    let members := now.control.registry.members
    let account := Account.ofAddress address
    [now.control.isAuthorizedAddress address = true, now.control.isAuthorized account = true,
        (gate.checkAddress address).value = .admitted, (gate.check account).value = .admitted,
        account ∈ members,
        (gate.ensureAddressOrigin address (.signed account)).value = .ok account].TFAE
      ∧ (∀ mode tx nonce, tx.caller = address → tx.isCreation = true →
          Validation.environmentFault now.config now.block tx = none →
          ((now.step (.run mode tx nonce)).value.1.denied? = none ↔ account ∈ members))
      ∧ ∀ origin,
        let outcome := (gate.ensureAddressOrigin address origin).value
        (∀ found, outcome = .ok found
            ↔ found = account ∧ origin = .signed account ∧ account ∈ members)
          ∧ (outcome = .error .notSigned ↔ origin = .root ∨ origin = .unsigned)
          ∧ (∀ subject expected signer,
            outcome = .error (.addressMismatch subject expected signer)
              ↔ subject = address ∧ expected = account ∧ origin = .signed signer
                ∧ signer ≠ account)
          ∧ ∀ subject deployer, outcome = .error (.unauthorizedDeployer subject deployer)
            ↔ subject = address ∧ deployer = account ∧ origin = .signed account
              ∧ account ∉ members := by
  intro now gate members account
  have hmembers : account ∈ members ↔ account ∈ gate.registry.accounts := Registry.mem_members
  refine ⟨?_, ?_, ?_⟩
  · refine List.tfae_of_forall (account ∈ gate.registry.accounts) _ fun path hpath => ?_
    simp only [List.mem_cons, List.not_mem_nil, or_false] at hpath
    rcases hpath with rfl | rfl | rfl | rfl | rfl | rfl
    · exact Registry.contains_iff
    · exact Registry.contains_iff
    · exact Gate.check_eq_admitted_iff
    · exact Gate.check_eq_admitted_iff
    · exact hmembers
    · rw [Gate.ensureAddressOrigin_eq_ok_iff]
      exact and_iff_right rfl |>.trans (and_iff_right rfl)
  · rintro mode tx nonce rfl hcreation hfault
    rw [hmembers]
    exact now.denied?_creation_eq_none_iff mode nonce hcreation hfault
  · intro origin outcome
    rw [hmembers]
    exact ⟨fun found => Gate.ensureAddressOrigin_eq_ok_iff,
      Gate.ensureAddressOrigin_eq_notSigned_iff,
      fun subject expected signer => Gate.ensureAddressOrigin_eq_mismatch_iff,
      fun subject deployer => Gate.ensureAddressOrigin_eq_unauthorized_iff⟩

/-- A creation by an address whose account was authorized before the control was rebuilt. -/
theorem admission_paths_agree_after_rebuild :
    let tx : Transaction := { caller := .zero, data := [0] }
    let account := Account.ofAddress tx.caller
    let history : List Step := [.authorize .root account, .rebuild Authority.root none]
    let now := (Session.steps { control := ⟨.stored ∅, Authority.root, []⟩ } history).2
    tx.isCreation = true ∧ Validation.environmentFault now.config now.block tx = none
      ∧ account ∈ now.control.registry.members
      ∧ (now.step (.run .commit tx none)).value.1.denied? = none := by
  intro tx account history now
  have hconfig : now.config = {} := rfl
  have hblock : now.block = {} := rfl
  have hfault : Validation.environmentFault now.config now.block tx = none := by
    rw [hconfig, hblock]
    rfl
  obtain ⟨_, hpaths, _⟩ :=
    admission_paths_agree { control := ⟨.stored ∅, Authority.root, []⟩ } history tx.caller
  have hcreation : tx.isCreation = true := rfl
  have hdenied := hpaths .commit tx none rfl hcreation hfault
  have hmember : account ∈ now.control.registry.members := by
    rw [Registry.mem_members, Session.mem_accounts_steps]
    simp [AuthorizedBy, history, rulings, Step.ruling?, Authority.root,
      Origin.isRoot, Ruling.decide]
  refine ⟨hcreation, hfault, hmember, ?_⟩
  rw [hdenied]
  exact hmember

end CreationGate
