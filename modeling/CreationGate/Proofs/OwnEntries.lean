import CreationGate.Proofs.History
import CreationGate.Proofs.Seeding

/-!
# Governance in a shared store

A ruling on an account writes one entry of a shared store, the one under the member key of the
account, and no key belongs to two accounts.  So what a history leaves under a key follows from
what it rules on the account of the key (`Session.get?_steps`): the last ruling decides, and a
key that is no member key, or the key of an account that no ruling is about, keeps what it had.
-/

namespace CreationGate

/-! ## Entries -/

namespace Ruling

/-- What a ruling leaves under the member key of its account: the empty value, or nothing. -/
def entry : Ruling → Option Bytes
  | granted => some []
  | withdrawn => none

/-- What is under a member key after a ruling; without one nothing changes. -/
def entryAfter (before : Option Bytes) : Option Ruling → Option Bytes
  | some ruling => ruling.entry
  | none => before

/-- Of two rulings the later one decides. -/
theorem entryAfter_or (before : Option Bytes) (earlier later : Option Ruling) :
    entryAfter before (later.or earlier) = entryAfter (entryAfter before earlier) later := by
  cases later <;> rfl

end Ruling

/-- What is ruled on one account is found under its key and under no other. -/
theorem Key.bind_account?_ite (key : Bytes) (deployer : Account) (ruling : Ruling) :
    ((account? key).bind fun account => if deployer = account then some ruling else none)
      = if key = ofAccount deployer then some ruling else none := by
  by_cases hkey : key = ofAccount deployer
  · rw [if_pos hkey, account?_eq_some_iff.mpr hkey, Option.bind_some, if_pos rfl]
  · rw [if_neg hkey]
    cases hread : account? key with
    | none => rfl
    | some account =>
      have hother : deployer ≠ account := by
        rintro rfl
        exact hkey (account?_eq_some_iff.mp hread)
      rw [Option.bind_some, if_neg hother]

/-- The same for the accounts of a list. -/
theorem Key.bind_account?_ite_mem (key : Bytes) (listed : List Account) (ruling : Ruling) :
    ((account? key).bind fun account => if account ∈ listed then some ruling else none)
      = if key ∈ listed.map ofAccount then some ruling else none := by
  by_cases hkey : key ∈ listed.map ofAccount
  · obtain ⟨account, hlisted, rfl⟩ := List.mem_map.mp hkey
    rw [if_pos hkey, account?_ofAccount, Option.bind_some, if_pos hlisted]
  · rw [if_neg hkey]
    cases hread : account? key with
    | none => rfl
    | some account =>
      have hother : account ∉ listed := fun hlisted =>
        hkey (List.mem_map.mpr ⟨account, hlisted, (account?_eq_some_iff.mp hread).symm⟩)
      rw [Option.bind_some, if_neg hother]

/-! ## Steps -/

/-- One step over a shared store changes each entry as it rules on the account of its key. -/
theorem Step.get?_onControl (step : Step) {control : Control} {store : ByteStore}
    (h : control.registry = .stored store) :
    ∃ next, (step.onControl control).registry = .stored next
      ∧ ∀ key, next.get? key = Ruling.entryAfter (store.get? key)
        ((Key.account? key).bind fun account => step.ruling? control.authority account) := by
  have hidle : ∀ key, store.get? key
      = Ruling.entryAfter (store.get? key) ((Key.account? key).bind fun _ => none) := by
    intro key
    rw [Option.bind_fun_none]
    rfl
  cases step with
  | authorize origin deployer =>
    simp only [onControl, ruling?]
    by_cases horigin : control.authority origin = true
    · refine ⟨store.insert (Key.ofAccount deployer) [], ?_, fun key => ?_⟩
      · rw [if_pos horigin, h]
        rfl
      · simp only [horigin, true_and]
        rw [SortedMap.get?_insert, Key.bind_account?_ite]
        split <;> rfl
    · simp only [if_neg horigin, if_neg fun hruled => horigin (And.left hruled)]
      exact ⟨store, h, hidle⟩
  | revoke origin deployer =>
    simp only [onControl, ruling?]
    by_cases horigin : control.authority origin = true
    · refine ⟨store.erase (Key.ofAccount deployer), ?_, fun key => ?_⟩
      · rw [if_pos horigin, h]
        rfl
      · simp only [horigin, true_and]
        rw [SortedMap.get?_erase, Key.bind_account?_ite]
        split <;> rfl
    · simp only [if_neg horigin, if_neg fun hruled => horigin (And.left hruled)]
      exact ⟨store, h, hidle⟩
  | rebuild authority genesis =>
    cases genesis with
    | none => exact ⟨store, h, hidle⟩
    | some genesis =>
      simp only [onControl, ruling?]
      refine ⟨_, by rw [h, Registry.insertAll_stored], fun key => ?_⟩
      simp only [← Genesis.mem_accounts]
      rw [SortedMap.get?_foldl_insert_const, Key.bind_account?_ite_mem]
      split <;> rfl
  | _ => exact ⟨store, h, hidle⟩

/-- By induction on the history: under each key is what the last ruling on its account left
there, or else what was there at first. -/
theorem Session.get?_steps (first : Session) (history : List Step) {store : ByteStore}
    (h : first.control.registry = .stored store) :
    ∃ last, (first.steps history).2.control.registry = .stored last
      ∧ ∀ key, last.get? key = Ruling.entryAfter (store.get? key)
        ((Key.account? key).bind fun account =>
          (rulings account first.control.authority history).getLast?) := by
  induction history generalizing first store with
  | nil =>
    refine ⟨store, h, fun key => ?_⟩
    simp only [rulings, List.getLast?_nil, Option.bind_fun_none]
    rfl
  | cons step rest ih =>
    obtain ⟨next, hnext, hstep⟩ := step.get?_onControl h
    rw [← control_step] at hnext
    obtain ⟨last, hlast, hrest⟩ := ih (first.step step).value.2 hnext
    refine ⟨last, hlast, fun key => ?_⟩
    rw [hrest, hstep, control_step, Step.authority_onControl]
    cases Key.account? key with
    | none => rfl
    | some account =>
      simp only [Option.bind_some]
      rw [getLast?_rulings_cons, Ruling.entryAfter_or]

/-- Under the key of an account that was ruled on is what the last ruling left, and every other
key has kept what it had. -/
theorem Session.own_entries_steps (first : Session) (history : List Step) {store : ByteStore}
    (h : first.control.registry = .stored store) :
    ∃ last, (first.steps history).2.control.registry = .stored last
      ∧ (∀ account ruling, (rulings account first.control.authority history).getLast?
          = some ruling → last.get? (Key.ofAccount account) = ruling.entry)
      ∧ ∀ key, (∀ account, rulings account first.control.authority history ≠ [] →
        key ≠ Key.ofAccount account) → last.get? key = store.get? key := by
  obtain ⟨last, hlast, hentries⟩ := first.get?_steps history h
  refine ⟨last, hlast, fun account ruling hruling => ?_, fun key hkey => ?_⟩
  · rw [hentries, Key.account?_ofAccount, Option.bind_some, hruling]
    rfl
  · rw [hentries]
    cases hread : Key.account? key with
    | none => rfl
    | some account =>
      have hnone : rulings account first.control.authority history = [] := by
        by_contra hsome
        exact hkey account hsome (Key.account?_eq_some_iff.mp hread)
      rw [Option.bind_some, hnone]
      rfl

/-- What authorizing an account and then revoking it rules on each account. -/
theorem rulings_authorize_revoke {authority : Authority} {grants withdraws : Origin}
    (hgrants : authority grants = true) (hwithdraws : authority withdraws = true)
    (deployer account : Account) :
    rulings account authority [.authorize grants deployer, .revoke withdraws deployer]
      = if deployer = account then [.granted, .withdrawn] else [] := by
  by_cases hsame : deployer = account
  · simp [rulings, Step.ruling?, Step.onAuthority, hgrants, hwithdraws, hsame]
  · simp [rulings, Step.ruling?, hsame]

/-- **Governance writes its own entries of a shared store and no others.**  Whatever the store
holds at first and whatever steps are taken, of which those that rule are the accepted calls:
the key of an account that was ruled on has the empty value if the last ruling granted, whatever
its value was before, and is absent if it withdrew; every other key, be it foreign, malformed or
that of an account that no call was about, has its first value or is absent as at first.  So
an absent account that is authorized and then revoked leaves the very same store. -/
theorem governance_writes_its_own_entries (session : Session) (store : ByteStore)
    (authority : Authority) (events : List Event) (steps : List Step) :
    let first := { session with control := ⟨.stored store, authority, events⟩ }
    (∃ last, (first.steps steps).2.control.registry = .stored last
      ∧ (∀ account ruling, (rulings account authority steps).getLast? = some ruling →
        last.get? (Key.ofAccount account) = ruling.entry)
      ∧ ∀ key, (∀ account, rulings account authority steps ≠ [] →
        key ≠ Key.ofAccount account) → last.get? key = store.get? key)
    ∧ ∀ account grants withdraws, authority grants = true → authority withdraws = true →
      store.get? (Key.ofAccount account) = none →
      (first.steps [.authorize grants account, .revoke withdraws account]).2.control.registry
        = .stored store := by
  intro first
  refine ⟨first.own_entries_steps steps rfl, ?_⟩
  intro account grants withdraws hgrants hwithdraws habsent
  obtain ⟨last, hlast, hruled, hother⟩ :=
    first.own_entries_steps [.authorize grants account, .revoke withdraws account] rfl
  have hrulings := rulings_authorize_revoke hgrants hwithdraws account
  -- Only the key of this account can have changed, and it is absent before and after.
  have hsame : last = store := by
    refine SortedMap.ext_get? fun key => ?_
    by_cases hkey : key = Key.ofAccount account
    · have hwithdrawn := hruled account .withdrawn (by rw [hrulings, if_pos rfl]; rfl)
      rw [hkey, hwithdrawn, habsent]
      rfl
    · apply hother
      intro other hruledon
      rw [hrulings] at hruledon
      split at hruledon
      next hsame => exact hsame ▸ hkey
      next => exact absurd rfl hruledon
  rw [hlast, hsame]

/-- A member key with a value is emptied by a call that repeats what holds already, a refused
call counts for nothing, and a foreign key stays. -/
theorem governance_writes_beside_foreign_keys :
    let deployer : Account := .repeated 32 7
    let store : ByteStore := .ofList [([1], [2]), (Key.ofAccount deployer, [3])]
    let session : Session := { control := ⟨.stored store, Authority.root, []⟩ }
    let steps : List Step := [.authorize .root deployer, .revoke .unsigned deployer]
    ∃ last, (session.steps steps).2.control.registry = .stored last
      ∧ last.get? (Key.ofAccount deployer) = some [] ∧ last.get? [1] = store.get? [1] := by
  intro deployer store session steps
  obtain ⟨last, hlast, hruled, hother⟩ :=
    (governance_writes_its_own_entries session store Authority.root [] steps).1
  have hruling : (rulings deployer Authority.root steps).getLast? = some .granted := by decide
  refine ⟨last, hlast, hruled deployer .granted hruling, hother [1] fun account _ hkey => ?_⟩
  have hlength := congrArg List.length hkey
  rw [Key.length_ofAccount, List.length_singleton, Key.length] at hlength
  omega

end CreationGate
