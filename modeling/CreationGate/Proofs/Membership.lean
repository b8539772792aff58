import CreationGate.Proofs.MemberKeys
import CreationGate.Proofs.PrefixScan
import CreationGate.Registry.Basic
import Mathlib.Data.Set.Subsingleton
import Mathlib.Order.BooleanAlgebra.Set

/-!
# Registries as sets of accounts

A registry of either kind stands for a set of accounts (`Registry.accounts`).  A look-up and
the list of members answer from this set alone, insertion and removal change it by one
account, and a raw write to the store behind a registry changes it by the account whose key
is written, if there is one (`Key.owners`).
-/

namespace CreationGate

/-- The accounts whose member key is `key`. -/
def Key.owners (key : Bytes) : Set Account := {account | Key.ofAccount account = key}

/-- A byte string is the member key of at most one account. -/
theorem Key.owners_subsingleton (key : Bytes) : (Key.owners key).Subsingleton := by
  intro a ha b hb
  have hab : Key.ofAccount a = Key.ofAccount b := Eq.trans ha (Eq.symm hb)
  exact Key.ofAccount_inj.mp hab

/-- A byte string of another length is no account's key. -/
theorem Key.owners_eq_empty_of_length {key : Bytes} (h : key.length ≠ Key.length) :
    Key.owners key = ∅ := by
  refine Set.eq_empty_of_forall_notMem fun account hkey => h ?_
  rw [← Key.length_ofAccount account]
  exact congrArg List.length (Eq.symm hkey)

namespace Registry

/-- The accounts that a registry holds.  In a store these are the accounts whose key is
present, whatever value it has. -/
def accounts : Registry → Set Account
  | memory members => {account | account ∈ members.keys}
  | stored store => {account | Key.ofAccount account ∈ store.keys}

/-! ## Look-ups -/

/-- A look-up finds exactly the accounts that a registry holds. -/
theorem contains_iff {registry : Registry} {account : Account} :
    registry.contains account = true ↔ account ∈ registry.accounts := by
  cases registry with
  | memory members => exact SortedMap.contains_iff_mem_keys
  | stored store => exact SortedMap.contains_iff_mem_keys

/-! ## Changes -/

theorem accounts_insert (registry : Registry) (account : Account) :
    (registry.insert account).accounts = registry.accounts ∪ {account} := by
  ext other
  rw [Set.mem_union, Set.mem_singleton_iff, or_comm]
  cases registry with
  | memory members => exact SortedMap.mem_keys_insert
  | stored store =>
    have hkeys : Key.ofAccount other ∈ (store.insert (Key.ofAccount account) []).keys
        ↔ Key.ofAccount other = Key.ofAccount account ∨ Key.ofAccount other ∈ store.keys :=
      SortedMap.mem_keys_insert
    rw [Key.ofAccount_inj] at hkeys
    exact hkeys

theorem accounts_remove (registry : Registry) (account : Account) :
    (registry.remove account).accounts = registry.accounts \ {account} := by
  ext other
  rw [Set.mem_sdiff, Set.mem_singleton_iff, and_comm]
  cases registry with
  | memory members => exact SortedMap.mem_keys_erase
  | stored store =>
    have hkeys : Key.ofAccount other ∈ (store.erase (Key.ofAccount account)).keys
        ↔ Key.ofAccount other ≠ Key.ofAccount account ∧ Key.ofAccount other ∈ store.keys :=
      SortedMap.mem_keys_erase
    rw [Ne, Key.ofAccount_inj] at hkeys
    exact hkeys

theorem insertAll_memory (added : List Account) (members : AccountSet) :
    (memory members).insertAll added
      = memory (added.foldl (fun members account => members.insert account ()) members) := by
  induction added generalizing members with
  | nil => rfl
  | cons account rest ih => exact ih _

theorem mem_accounts_insertAll {added : List Account} {registry : Registry} {account : Account} :
    account ∈ (registry.insertAll added).accounts
      ↔ account ∈ added ∨ account ∈ registry.accounts := by
  unfold insertAll
  induction added generalizing registry with
  | nil => simp
  | cons first rest ih =>
    rw [List.foldl_cons, ih, accounts_insert, Set.mem_union, Set.mem_singleton_iff,
      List.mem_cons]
    constructor
    · rintro (h | h | h)
      · exact .inl (.inr h)
      · exact .inr h
      · exact .inl (.inl h)
    · rintro ((h | h) | h)
      · exact .inr (.inr h)
      · exact .inl h
      · exact .inr (.inl h)

/-- A raw write adds the account whose key is written. -/
theorem accounts_put (store : ByteStore) (key value : Bytes) :
    (stored (store.insert key value)).accounts = (stored store).accounts ∪ Key.owners key := by
  ext account
  rw [Set.union_comm]
  exact SortedMap.mem_keys_insert

/-- A raw deletion removes the account whose key is deleted. -/
theorem accounts_delete (store : ByteStore) (key : Bytes) :
    (stored (store.erase key)).accounts = (stored store).accounts \ Key.owners key := by
  ext account
  rw [Set.mem_sdiff, and_comm]
  exact SortedMap.mem_keys_erase

/-! ## The list of members -/

/-- The accounts read off a store's keys, in the order of the keys. -/
theorem mem_filterMap_keysFrom {store : ByteStore} {account : Account} :
    account ∈ (store.keysFrom Key.marker).filterMap Key.account?
      ↔ Key.ofAccount account ∈ store.keys := by
  rw [ByteStore.keysFrom_eq_filter, List.mem_filterMap]
  constructor
  · rintro ⟨key, hkey, hread⟩
    rw [Key.account?_eq_some_iff] at hread
    subst hread
    exact (List.mem_filter.mp hkey).1
  · intro h
    exact ⟨Key.ofAccount account,
      List.mem_filter.mpr ⟨h, Key.marker_isPrefixOf_ofAccount account⟩,
      Key.account?_eq_some_iff.mpr rfl⟩

/-- No account is read off two keys of a store. -/
theorem nodup_filterMap_keysFrom (store : ByteStore) :
    ((store.keysFrom Key.marker).filterMap Key.account?).Nodup := by
  rw [ByteStore.keysFrom_eq_filter, List.Nodup, List.pairwise_filterMap]
  refine (List.Pairwise.filter _ store.pairwise_keys).imp fun {k₁ k₂} hlt => ?_
  intro a ha b hb hab
  subst hab
  rw [Key.eq_ofAccount_of_account? ha, Key.eq_ofAccount_of_account? hb,
    Std.ReflOrd.compare_self] at hlt
  cases hlt

/-- The members are the accounts that the registry holds. -/
theorem mem_members {registry : Registry} {account : Account} :
    account ∈ registry.members ↔ account ∈ registry.accounts := by
  cases registry with
  | memory members => exact Iff.rfl
  | stored store =>
    unfold members
    rw [List.mem_mergeSort]
    exact mem_filterMap_keysFrom

/-- The members are listed in strictly ascending order of their bytes. -/
theorem members_ascending (registry : Registry) :
    registry.members.Pairwise fun a b => compare a.bytes b.bytes = .lt := by
  cases registry with
  | memory members => exact members.pairwise_keys
  | stored store =>
    have htrans : ∀ a b c : Account, (compare a b).isLE → (compare b c).isLE →
        (compare a c).isLE := fun _ _ _ => Std.TransOrd.isLE_trans
    have htotal : ∀ a b : Account, (compare a b).isLE || (compare b a).isLE := by
      intro a b
      rw [Bool.or_eq_true]
      cases h : compare a b with
      | lt => exact .inl rfl
      | eq => exact .inl rfl
      | gt => exact .inr (by rw [Std.OrientedCmp.lt_of_gt h]; rfl)
    -- Sorting only puts the accounts in weak order; that none is listed twice makes it strict.
    have hle : (members (stored store)).Pairwise fun a b => (compare a b).isLE :=
      List.pairwise_mergeSort htrans htotal _
    have hnodup : (members (stored store)).Nodup :=
      (List.mergeSort_perm _ _).nodup_iff.mpr (nodup_filterMap_keysFrom store)
    refine (hle.and hnodup).imp fun {a b} h => ?_
    rcases Ordering.isLE_iff_eq_lt_or_eq_eq.mp h.1 with hlt | heq
    · exact hlt
    · exact absurd (Std.LawfulEqCmp.eq_of_compare heq) h.2

end Registry

end CreationGate
