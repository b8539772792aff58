import CreationGate.Registry.ByteStore
import Mathlib.Data.List.TakeWhile

/-!
# Keys with a common start

In byte order the keys that begin with a given string stand side by side: a string between the
start and a key that begins with it begins with it too (`isPrefixOf_of_between`).  So the keys of
a store fall into three stretches, and of these only the one that `ByteStore.keysFrom` reads off
begins with the start (`ByteStore.keys_eq_append`).
-/

namespace CreationGate

/-! ## Starts of byte strings in byte order -/

/-- A byte string is not before a start of its own. -/
theorem compare_ne_lt_of_isPrefixOf {start key : Bytes} (h : start.isPrefixOf key = true) :
    compare key start ≠ .lt := by
  induction start generalizing key with
  | nil =>
    cases key with
    | nil => decide
    | cons b rest => rw [List.compare_cons_nil]; decide
  | cons a start ih =>
    cases key with
    | nil => cases h
    | cons b rest =>
      rw [List.isPrefixOf_cons_cons, Bool.and_eq_true, beq_iff_eq] at h
      obtain ⟨rfl, hrest⟩ := h
      rw [List.compare_cons_cons, Std.ReflOrd.compare_self]
      exact ih hrest

/-- A byte string between a start and one that begins with it begins with it too. -/
theorem isPrefixOf_of_between {start key later : Bytes} (hstart : compare key start ≠ .lt)
    (hle : compare key later = .lt) (h : start.isPrefixOf later = true) :
    start.isPrefixOf key = true := by
  induction start generalizing key later with
  | nil => rfl
  | cons a start ih =>
    cases later with
    | nil => cases h
    | cons b later =>
      rw [List.isPrefixOf_cons_cons, Bool.and_eq_true, beq_iff_eq] at h
      obtain ⟨rfl, hlater⟩ := h
      cases key with
      | nil => exact absurd List.compare_nil_cons hstart
      | cons c key =>
        rw [List.compare_cons_cons] at hstart hle
        cases hc : compare c a with
        -- A first byte below that of `start` is before it, one above is after `later`.
        | lt => rw [hc] at hstart; exact absurd rfl hstart
        | gt => rw [hc] at hle; cases hle
        | eq =>
          rw [hc] at hstart hle
          have : c = a := Std.LawfulEqCmp.eq_of_compare hc
          subst this
          rw [List.isPrefixOf_cons_cons, ih hstart hle hlater, beq_self_eq_true]
          rfl

/-- Among ascending keys that are not before `start`, those that begin with it come first. -/
theorem takeWhile_isPrefixOf_eq_filter {start : Bytes} {keys : List Bytes}
    (hasc : keys.Pairwise fun a b => compare a b = .lt)
    (hstart : ∀ key ∈ keys, compare key start ≠ .lt) :
    (keys.takeWhile fun key => start.isPrefixOf key)
      = keys.filter fun key => start.isPrefixOf key := by
  induction keys with
  | nil => rfl
  | cons key keys ih =>
    rw [List.pairwise_cons] at hasc
    by_cases h : start.isPrefixOf key = true
    · rw [List.takeWhile_cons_of_pos h, List.filter_cons_of_pos h,
        ih hasc.2 fun k hk => hstart k (List.mem_cons_of_mem _ hk)]
    · -- A later key that begins with `start` would have this one between it and `start`.
      have hnone : ∀ k ∈ keys, ¬ start.isPrefixOf k = true := by
        intro k hk hpre
        exact h (isPrefixOf_of_between (hstart key List.mem_cons_self) (hasc.1 k hk) hpre)
      rw [List.takeWhile_cons_of_neg h, List.filter_cons_of_neg h]
      exact (List.filter_eq_nil_iff.mpr hnone).symm

/-- Among ascending keys none is before `start` from the first one on that is not. -/
theorem compare_ne_lt_of_mem_dropWhile {start : Bytes} {keys : List Bytes}
    (hasc : keys.Pairwise fun a b => compare a b = .lt) {key : Bytes}
    (h : key ∈ keys.dropWhile fun k => compare k start == .lt) : compare key start ≠ .lt := by
  induction keys with
  | nil => cases h
  | cons first keys ih =>
    rw [List.pairwise_cons] at hasc
    by_cases hfirst : compare first start = .lt
    · rw [List.dropWhile_cons_of_pos (by simp [hfirst])] at h
      exact ih hasc.2 h
    · rw [List.dropWhile_cons_of_neg (by simp [hfirst])] at h
      intro hlt
      rcases List.mem_cons.mp h with rfl | hlater
      · exact hfirst hlt
      · exact hfirst (Std.TransCmp.lt_trans (hasc.1 key hlater) hlt)

/-! ## Stretches of a store -/

namespace ByteStore

variable (store : ByteStore) (start : Bytes)

theorem lt_of_mem_takeWhile {key : Bytes}
    (h : key ∈ store.keys.takeWhile fun k => compare k start == .lt) :
    compare key start = .lt ∧ ¬ start <+: key := by
  have hlt : compare key start = .lt := by
    simpa using List.mem_takeWhile_imp h
  refine ⟨hlt, fun hpre => ?_⟩
  exact compare_ne_lt_of_isPrefixOf (List.isPrefixOf_iff_prefix.mpr hpre) hlt

/-- The stretch of a store's keys from `start` on holds all keys that begin with it. -/
theorem keysFrom_eq_filter :
    store.keysFrom start = store.keys.filter fun key => start.isPrefixOf key := by
  have hasc := store.pairwise_keys
  have hbefore : (store.keys.takeWhile fun k => compare k start == .lt).filter
      (fun key => start.isPrefixOf key) = [] := by
    rw [List.filter_eq_nil_iff]
    intro key hkey
    rw [List.isPrefixOf_iff_prefix]
    exact (lt_of_mem_takeWhile store start hkey).2
  have hrest := takeWhile_isPrefixOf_eq_filter
    (hasc.sublist (List.dropWhile_sublist fun k => compare k start == .lt))
    (fun _ hkey => compare_ne_lt_of_mem_dropWhile hasc hkey)
  calc store.keysFrom start
      = (store.keys.dropWhile fun k => compare k start == .lt).filter
          fun key => start.isPrefixOf key := hrest
    _ = (store.keys.takeWhile (fun k => compare k start == .lt)
          ++ store.keys.dropWhile fun k => compare k start == .lt).filter
          fun key => start.isPrefixOf key := by rw [List.filter_append, hbefore, List.nil_append]
    _ = store.keys.filter fun key => start.isPrefixOf key := by
      rw [List.takeWhile_append_dropWhile]

/-- Before the stretch stand the keys before `start`, and behind it keys after `start` that begin
otherwise. -/
theorem keys_eq_append :
    ∃ before after, store.keys = before ++ (store.keysFrom start ++ after)
      ∧ (∀ key ∈ before, compare key start = .lt ∧ ¬ start <+: key)
      ∧ ∀ key ∈ after, compare start key = .lt ∧ ¬ start <+: key := by
  have hasc := store.pairwise_keys
  let rest := store.keys.dropWhile fun k => compare k start == .lt
  have hsplit : store.keys = (store.keys.takeWhile fun k => compare k start == .lt)
      ++ (store.keysFrom start ++ rest.dropWhile fun key => start.isPrefixOf key) := by
    rw [keysFrom, List.takeWhile_append_dropWhile, List.takeWhile_append_dropWhile]
  refine ⟨_, _, hsplit, fun key hkey => lt_of_mem_takeWhile store start hkey, fun key hkey => ?_⟩
  have hpre : ¬ start <+: key := by
    intro hpre
    -- A key that begins with `start` is in the stretch, and no key stands in two places.
    have hstretch : key ∈ store.keysFrom start := by
      rw [keysFrom_eq_filter, List.mem_filter, hsplit]
      exact ⟨by simp [hkey], List.isPrefixOf_iff_prefix.mpr hpre⟩
    rw [hsplit, List.pairwise_append, List.pairwise_append] at hasc
    have htwice := hasc.2.1.2.2 key hstretch key hkey
    rw [Std.ReflOrd.compare_self] at htwice
    cases htwice
  refine ⟨?_, hpre⟩
  cases hcompare : compare key start with
  | lt =>
    have hmem : key ∈ rest := (List.dropWhile_sublist _).subset hkey
    exact absurd hcompare (compare_ne_lt_of_mem_dropWhile store.pairwise_keys hmem)
  | eq =>
    have heq : key = start := Std.LawfulEqCmp.eq_of_compare hcompare
    exact absurd (heq ▸ List.prefix_refl key) hpre
  | gt => exact Std.OrientedCmp.lt_of_gt hcompare

theorem count_keys (key : Bytes) :
    store.keys.count key = if store.contains key then 1 else 0 := by
  have hnodup : store.keys.Nodup := by
    refine store.pairwise_keys.imp fun {a b} hlt heq => ?_
    rw [heq, Std.ReflOrd.compare_self] at hlt
    cases hlt
  rw [hnodup.count]
  simp only [SortedMap.contains_iff_mem_keys]

end ByteStore

/-- **Reading off one stretch is filtering all keys.**  For every store and every start, also the
empty one, one that is a key itself, one of the largest bytes alone and one longer than every key,
the stretch is the ascending list of the keys that begin with the start, each of them once.  The
keys before it are before the start and those behind it are after it, and none of either begins
with the start. -/
theorem stretch_is_plain_filter (store : ByteStore) (start : Bytes) :
    store.keysFrom start = store.keys.filter (fun key => start.isPrefixOf key)
      ∧ (store.keysFrom start).Pairwise (fun a b => compare a b = .lt)
      ∧ (∀ key, (store.keysFrom start).count key
        = if store.contains key = true ∧ start <+: key then 1 else 0)
      ∧ ∃ before after, store.keys = before ++ (store.keysFrom start ++ after)
        ∧ (∀ key ∈ before, compare key start = .lt ∧ ¬ start <+: key)
        ∧ ∀ key ∈ after, compare start key = .lt ∧ ¬ start <+: key := by
  have hfilter := store.keysFrom_eq_filter start
  refine ⟨hfilter, ?_, ?_, store.keys_eq_append start⟩
  · rw [hfilter]
    exact List.Pairwise.filter _ store.pairwise_keys
  · intro key
    rw [hfilter]
    by_cases hpre : start.isPrefixOf key = true
    · rw [List.count_filter hpre, store.count_keys]
      simp only [List.isPrefixOf_iff_prefix.mp hpre, and_true]
    · rw [if_neg fun h => hpre (List.isPrefixOf_iff_prefix.mpr h.2), List.count_eq_zero]
      intro hkey
      exact hpre (List.mem_filter.mp hkey).2

/-- A start that is a key itself, among keys of the largest byte. -/
example :
    ByteStore.keysFrom
        (.ofList [([255, 255, 0], []), ([254], [7]), ([255, 255], []), ([255], [])]) [255, 255]
      = [[255, 255], [255, 255, 0]] := by
  decide

end CreationGate
