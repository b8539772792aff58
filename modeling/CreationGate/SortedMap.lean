/-!
# Maps kept in key order

A map is its list of entries in strictly ascending key order, so equal maps are equal values
and the order in which keys are listed is fixed.  Every operation is described by `get?`, and
two maps with the same look-ups are equal (`SortedMap.ext_get?`).
-/

namespace CreationGate

/-- A finite map, held as its entries in strictly ascending key order. -/
structure SortedMap (κ α : Type) [Ord κ] where
  /-- The entries, by ascending key. -/
  entries : List (κ × α)
  sorted : entries.Pairwise fun a b => compare a.1 b.1 = .lt

namespace SortedMap

variable {κ α β : Type} [Ord κ]

theorem ext_entries {m₁ m₂ : SortedMap κ α} (h : m₁.entries = m₂.entries) : m₁ = m₂ := by
  cases m₁; cases m₂; cases h; rfl

instance [DecidableEq κ] [DecidableEq α] : DecidableEq (SortedMap κ α) := fun m₁ m₂ =>
  decidable_of_iff (m₁.entries = m₂.entries) ⟨ext_entries, fun h => h ▸ rfl⟩

def empty : SortedMap κ α := ⟨[], .nil⟩

instance : EmptyCollection (SortedMap κ α) := ⟨empty⟩
instance : Inhabited (SortedMap κ α) := ⟨empty⟩

def keys (m : SortedMap κ α) : List κ := m.entries.map (·.1)

def size (m : SortedMap κ α) : Nat := m.entries.length

def isEmpty (m : SortedMap κ α) : Bool := m.entries.isEmpty

/-- The value at the first entry of a list with the given key. -/
def lookup (k : κ) : List (κ × α) → Option α
  | [] => none
  | (k', a) :: rest => if compare k k' = .eq then some a else lookup k rest

/-- The value at a key. -/
def get? (m : SortedMap κ α) (k : κ) : Option α := lookup k m.entries

def contains (m : SortedMap κ α) (k : κ) : Bool := (m.get? k).isSome

/-- Places an entry among ascending ones, replacing one with the same key. -/
def insertEntry (k : κ) (a : α) : List (κ × α) → List (κ × α)
  | [] => [(k, a)]
  | (k', a') :: rest =>
    match compare k k' with
    | .lt => (k, a) :: (k', a') :: rest
    | .eq => (k, a) :: rest
    | .gt => (k', a') :: insertEntry k a rest

theorem mem_insertEntry {k : κ} {a : α} {e : κ × α} {l : List (κ × α)} :
    e ∈ insertEntry k a l → e = (k, a) ∨ e ∈ l := by
  induction l with
  | nil => simp [insertEntry]
  | cons hd tl ih =>
    rcases hd with ⟨k', a'⟩
    rw [insertEntry]
    split
    · simp
    · intro h
      rcases List.mem_cons.mp h with h | h
      · exact .inl h
      · exact .inr (List.mem_cons_of_mem _ h)
    · intro h
      rcases List.mem_cons.mp h with h | h
      · exact .inr (h ▸ List.mem_cons_self)
      · exact (ih h).imp_right (List.mem_cons_of_mem _)

theorem pairwise_insertEntry [Std.TransOrd κ] [Std.LawfulEqOrd κ] (k : κ) (a : α)
    {l : List (κ × α)} (h : l.Pairwise fun x y => compare x.1 y.1 = .lt) :
    (insertEntry k a l).Pairwise fun x y => compare x.1 y.1 = .lt := by
  induction l with
  | nil => simp [insertEntry]
  | cons hd tl ih =>
    rcases hd with ⟨k', a'⟩
    rw [List.pairwise_cons] at h
    rw [insertEntry]
    split
    · next hlt =>
      refine List.pairwise_cons.mpr ⟨?_, List.pairwise_cons.mpr h⟩
      intro e he
      rcases List.mem_cons.mp he with rfl | he
      · exact hlt
      · exact Std.TransCmp.lt_trans hlt (h.1 e he)
    · next heq =>
      have : k = k' := Std.LawfulEqCmp.eq_of_compare heq
      subst this
      exact List.pairwise_cons.mpr h
    · next hgt =>
      refine List.pairwise_cons.mpr ⟨?_, ih h.2⟩
      intro e he
      rcases mem_insertEntry he with rfl | he
      · exact Std.OrientedCmp.lt_of_gt hgt
      · exact h.1 e he

/-- The map with `a` at `k`. -/
def insert [Std.TransOrd κ] [Std.LawfulEqOrd κ] (m : SortedMap κ α) (k : κ) (a : α) :
    SortedMap κ α :=
  ⟨insertEntry k a m.entries, pairwise_insertEntry k a m.sorted⟩

/-- The map without an entry at `k`. -/
def erase (m : SortedMap κ α) (k : κ) : SortedMap κ α :=
  ⟨m.entries.filter fun e => compare k e.1 != .eq, m.sorted.filter _⟩

/-- The map with a function applied to the value at `k`, if there is one. -/
def modify (m : SortedMap κ α) (k : κ) (f : α → α) : SortedMap κ α where
  entries := m.entries.map fun e => if compare k e.1 = .eq then (e.1, f e.2) else e
  sorted := by
    refine List.pairwise_map.mpr (m.sorted.imp ?_)
    intro x y h
    split <;> split <;> exact h

/-- The map with a function applied to every value. -/
def mapValues (f : κ → α → β) (m : SortedMap κ α) : SortedMap κ β where
  entries := m.entries.map fun e => (e.1, f e.1 e.2)
  sorted := List.pairwise_map.mpr m.sorted

/-- The map with a value at `k`, or without one. -/
def put [Std.TransOrd κ] [Std.LawfulEqOrd κ] (m : SortedMap κ α) (k : κ) :
    Option α → SortedMap κ α
  | some a => m.insert k a
  | none => m.erase k

/-- The map of a list of entries; a later entry replaces an earlier one with its key. -/
def ofList [Std.TransOrd κ] [Std.LawfulEqOrd κ] (l : List (κ × α)) : SortedMap κ α :=
  l.foldl (fun m e => m.insert e.1 e.2) ∅

/-- The first map with all entries of the second put over it. -/
def extend [Std.TransOrd κ] [Std.LawfulEqOrd κ] (m later : SortedMap κ α) : SortedMap κ α :=
  later.entries.foldl (fun m e => m.insert e.1 e.2) m

/-! ## Look-ups -/

@[simp] theorem get?_empty (k : κ) : (∅ : SortedMap κ α).get? k = none := rfl

theorem lookup_eq_none_of_forall_lt [Std.TransOrd κ] [Std.LawfulEqOrd κ] {k : κ}
    {l : List (κ × α)} (h : ∀ e ∈ l, compare k e.1 = .lt) : lookup k l = none := by
  induction l with
  | nil => rfl
  | cons hd tl ih =>
    have hne : ¬ compare k hd.1 = .eq := by simp [h hd List.mem_cons_self]
    simp only [lookup, hne, ↓reduceIte]
    exact ih fun e he => h e (List.mem_cons_of_mem _ he)

theorem lookup_insertEntry [Std.TransOrd κ] [Std.LawfulEqOrd κ] (k k' : κ) (a : α)
    (l : List (κ × α)) :
    lookup k' (insertEntry k a l) = if compare k' k = .eq then some a else lookup k' l := by
  induction l with
  | nil => rfl
  | cons hd tl ih =>
    rcases hd with ⟨k₁, a₁⟩
    rw [insertEntry]
    split
    · rfl
    · next heq =>
      have : k = k₁ := Std.LawfulEqCmp.eq_of_compare heq
      subst this
      simp only [lookup]
      split <;> rfl
    · next hgt =>
      simp only [lookup, ih]
      by_cases h₁ : compare k' k₁ = .eq
      · have : k' = k₁ := Std.LawfulEqCmp.eq_of_compare h₁
        subst this
        have hne : ¬ compare k' k = .eq := by
          intro h
          have : k' = k := Std.LawfulEqCmp.eq_of_compare h
          subst this
          simp at hgt
        simp [hne]
      · simp [h₁]

/-- A written key reads as written, and every other key as before. -/
theorem get?_insert [Std.TransOrd κ] [Std.LawfulEqOrd κ] [DecidableEq κ] (m : SortedMap κ α)
    (k k' : κ) (a : α) :
    (m.insert k a).get? k' = if k' = k then some a else m.get? k' := by
  simp only [get?, insert, lookup_insertEntry]
  by_cases h : k' = k
  · subst h; simp
  · have : ¬ compare k' k = .eq := fun hc => h (Std.LawfulEqCmp.eq_of_compare hc)
    simp [h, this]

/-- An erased key reads as absent, and every other key as before. -/
theorem get?_erase [Std.TransOrd κ] [Std.LawfulEqOrd κ] [DecidableEq κ] (m : SortedMap κ α)
    (k k' : κ) :
    (m.erase k).get? k' = if k' = k then none else m.get? k' := by
  simp only [get?, erase]
  induction m.entries with
  | nil => simp [lookup]
  | cons hd tl ih =>
    rcases hd with ⟨k₁, a₁⟩
    by_cases h₁ : compare k k₁ = .eq
    · have : k = k₁ := Std.LawfulEqCmp.eq_of_compare h₁
      subst this
      rw [List.filter_cons_of_neg (by simp), ih]
      by_cases h : k' = k
      · simp [h]
      · have : ¬ compare k' k = .eq := fun hc => h (Std.LawfulEqCmp.eq_of_compare hc)
        simp [lookup, h, this]
    · rw [List.filter_cons_of_pos (by simp [h₁]), lookup, ih]
      by_cases h : k' = k
      · subst h; simp [h₁]
      · simp [lookup, h]

theorem mem_of_lookup_eq_some [Std.LawfulEqOrd κ] {k : κ} {a : α} {l : List (κ × α)}
    (h : lookup k l = some a) : (k, a) ∈ l := by
  induction l with
  | nil => cases h
  | cons hd tl ih =>
    rcases hd with ⟨k₁, a₁⟩
    simp only [lookup] at h
    split at h
    · next heq =>
      have : k = k₁ := Std.LawfulEqCmp.eq_of_compare heq
      subst this
      cases h
      exact List.mem_cons_self
    · exact List.mem_cons_of_mem _ (ih h)

theorem lookup_eq_some_of_mem [Std.TransOrd κ] [Std.LawfulEqOrd κ] {k : κ} {a : α}
    {l : List (κ × α)} (hl : l.Pairwise fun x y => compare x.1 y.1 = .lt)
    (h : (k, a) ∈ l) : lookup k l = some a := by
  induction l with
  | nil => cases h
  | cons hd tl ih =>
    rcases hd with ⟨k₁, a₁⟩
    rw [List.pairwise_cons] at hl
    rcases List.mem_cons.mp h with h | h
    · cases h; simp [lookup]
    · have hlt := hl.1 (k, a) h
      have hne : ¬ compare k k₁ = .eq := by
        intro hc
        have : k = k₁ := Std.LawfulEqCmp.eq_of_compare hc
        subst this
        simp at hlt
      simp only [lookup, hne, ↓reduceIte]
      exact ih hl.2 h

/-- A look-up succeeds exactly at the entries. -/
theorem get?_eq_some_iff [Std.TransOrd κ] [Std.LawfulEqOrd κ] {m : SortedMap κ α} {k : κ}
    {a : α} : m.get? k = some a ↔ (k, a) ∈ m.entries :=
  ⟨mem_of_lookup_eq_some, lookup_eq_some_of_mem m.sorted⟩

/-- A key has a value exactly if it is listed. -/
theorem contains_iff_mem_keys [Std.TransOrd κ] [Std.LawfulEqOrd κ] {m : SortedMap κ α} {k : κ} :
    m.contains k = true ↔ k ∈ m.keys := by
  rw [contains, Option.isSome_iff_exists, keys, List.mem_map]
  constructor
  · rintro ⟨a, h⟩
    exact ⟨(k, a), get?_eq_some_iff.mp h, rfl⟩
  · rintro ⟨⟨k', a⟩, h, rfl⟩
    exact ⟨a, get?_eq_some_iff.mpr h⟩

/-- Keys are listed in strictly ascending order. -/
theorem pairwise_keys (m : SortedMap κ α) : m.keys.Pairwise fun a b => compare a b = .lt :=
  List.pairwise_map.mpr m.sorted

theorem get?_mapValues (f : κ → α → β) (m : SortedMap κ α) (k : κ) [Std.LawfulEqOrd κ] :
    (m.mapValues f).get? k = (m.get? k).map (f k) := by
  simp only [get?, mapValues]
  induction m.entries with
  | nil => rfl
  | cons hd tl ih =>
    rcases hd with ⟨k₁, a₁⟩
    by_cases h : compare k k₁ = .eq
    · have : k = k₁ := Std.LawfulEqCmp.eq_of_compare h
      subst this
      simp [lookup]
    · simp only [List.map_cons, lookup, h, ↓reduceIte]
      exact ih

/-- A modified key reads as modified, and every other key as before. -/
theorem get?_modify [Std.TransOrd κ] [Std.LawfulEqOrd κ] [DecidableEq κ] (m : SortedMap κ α)
    (k k' : κ) (f : α → α) :
    (m.modify k f).get? k' = if k' = k then (m.get? k').map f else m.get? k' := by
  simp only [get?, modify]
  induction m.entries with
  | nil => simp [lookup]
  | cons hd tl ih =>
    rcases hd with ⟨k₁, a₁⟩
    have hhead : (if compare k k₁ = .eq then (k₁, f a₁) else (k₁, a₁))
        = (k₁, if compare k k₁ = .eq then f a₁ else a₁) := by split <;> rfl
    rw [List.map_cons, hhead]
    simp only [lookup]
    rw [ih]
    by_cases hhit : compare k' k₁ = .eq
    · obtain rfl : k' = k₁ := Std.LawfulEqCmp.eq_of_compare hhit
      by_cases h : k' = k
      · subst h; simp
      · have hne : ¬compare k k' = .eq := fun hc => h (Std.LawfulEqCmp.eq_of_compare hc).symm
        simp [h, hne]
    · simp [hhit]

theorem get?_foldl_insert [Std.TransOrd κ] [Std.LawfulEqOrd κ] [DecidableEq κ]
    {l : List (κ × α)} (hl : l.Pairwise fun x y => compare x.1 y.1 = .lt)
    (m : SortedMap κ α) (k : κ) :
    (l.foldl (fun m e => m.insert e.1 e.2) m).get? k = (lookup k l).or (m.get? k) := by
  induction l generalizing m with
  | nil => rfl
  | cons hd tl ih =>
    rcases hd with ⟨k₁, a₁⟩
    rw [List.pairwise_cons] at hl
    rw [List.foldl_cons, ih hl.2, get?_insert]
    by_cases h : k = k₁
    · subst h
      rw [lookup_eq_none_of_forall_lt hl.1]
      simp [lookup]
    · have : ¬ compare k k₁ = .eq := fun hc => h (Std.LawfulEqCmp.eq_of_compare hc)
      simp [lookup, h, this]

/-- A key of the later map reads as there, and every other key as before. -/
theorem get?_extend [Std.TransOrd κ] [Std.LawfulEqOrd κ] [DecidableEq κ]
    (m later : SortedMap κ α) (k : κ) :
    (m.extend later).get? k = (later.get? k).or (m.get? k) :=
  get?_foldl_insert later.sorted m k

theorem get?_foldl_insert_const [Std.TransOrd κ] [Std.LawfulEqOrd κ] [DecidableEq κ]
    (key : β → κ) (a : α) (l : List β) (m : SortedMap κ α) (k : κ) :
    (l.foldl (fun m b => m.insert (key b) a) m).get? k
      = if k ∈ l.map key then some a else m.get? k := by
  induction l generalizing m with
  | nil => rfl
  | cons b rest ih =>
    rw [List.foldl_cons, ih, get?_insert, List.map_cons]
    by_cases hrest : k ∈ rest.map key
    · rw [if_pos hrest, if_pos (List.mem_cons_of_mem _ hrest)]
    · rw [if_neg hrest]
      by_cases hb : k = key b
      · rw [if_pos hb, if_pos (hb ▸ List.mem_cons_self)]
      · rw [if_neg hb, if_neg fun h => (List.mem_cons.mp h).elim hb hrest]

/-- A written key is listed beside those listed before. -/
theorem mem_keys_insert [Std.TransOrd κ] [Std.LawfulEqOrd κ] [DecidableEq κ]
    {m : SortedMap κ α} {k k' : κ} {a : α} :
    k' ∈ (m.insert k a).keys ↔ k' = k ∨ k' ∈ m.keys := by
  rw [← contains_iff_mem_keys, ← contains_iff_mem_keys, contains, contains, get?_insert]
  by_cases h : k' = k
  · simp [h]
  · simp [h]

/-- An erased key is listed no more, and every other key as before. -/
theorem mem_keys_erase [Std.TransOrd κ] [Std.LawfulEqOrd κ] [DecidableEq κ]
    {m : SortedMap κ α} {k k' : κ} : k' ∈ (m.erase k).keys ↔ k' ≠ k ∧ k' ∈ m.keys := by
  rw [← contains_iff_mem_keys, ← contains_iff_mem_keys, contains, contains, get?_erase]
  by_cases h : k' = k
  · simp [h]
  · simp [h]

/-! ## Ascending lists -/

/-- Lists that ascend by a key and have the same elements are equal. -/
theorem eq_of_ascending [Std.TransOrd κ] {f : β → κ} {l₁ l₂ : List β}
    (h₁ : l₁.Pairwise fun a b => compare (f a) (f b) = .lt)
    (h₂ : l₂.Pairwise fun a b => compare (f a) (f b) = .lt) (h : ∀ a, a ∈ l₁ ↔ a ∈ l₂) :
    l₁ = l₂ := by
  have nodup : ∀ {l : List β}, l.Pairwise (fun a b => compare (f a) (f b) = .lt) → l.Nodup := by
    intro l hl
    refine hl.imp fun {a b} hlt heq => ?_
    subst heq
    simp at hlt
  refine List.Perm.eq_of_pairwise ?_ h₁ h₂
    ((List.perm_ext_iff_of_nodup (nodup h₁) (nodup h₂)).mpr h)
  intro a b _ _ hab hba
  exact absurd (Std.OrientedCmp.gt_of_lt hba) (by rw [hab]; decide)

/-- Maps with the same look-ups are equal. -/
theorem ext_get? [Std.TransOrd κ] [Std.LawfulEqOrd κ] {m₁ m₂ : SortedMap κ α}
    (h : ∀ k, m₁.get? k = m₂.get? k) : m₁ = m₂ := by
  refine ext_entries (eq_of_ascending m₁.sorted m₂.sorted fun e => ?_)
  rcases e with ⟨k, a⟩
  rw [← get?_eq_some_iff, ← get?_eq_some_iff, h k]

/-- Writing one value under the keys of a list does not depend on their order and repetitions. -/
theorem foldl_insert_const_congr [Std.TransOrd κ] [Std.LawfulEqOrd κ] [DecidableEq κ]
    {key : β → κ} {l₁ l₂ : List β} (h : ∀ k, k ∈ l₁.map key ↔ k ∈ l₂.map key) (a : α)
    (m : SortedMap κ α) :
    l₁.foldl (fun m b => m.insert (key b) a) m = l₂.foldl (fun m b => m.insert (key b) a) m := by
  refine ext_get? fun k => ?_
  rw [get?_foldl_insert_const, get?_foldl_insert_const]
  simp only [h]

/-! ## The order of writes -/

theorem get?_put [Std.TransOrd κ] [Std.LawfulEqOrd κ] [DecidableEq κ] (m : SortedMap κ α)
    (k k' : κ) (a? : Option α) : (m.put k a?).get? k' = if k' = k then a? else m.get? k' := by
  cases a? with
  | none => exact get?_erase m k k'
  | some a => exact get?_insert m k k' a

/-- Writes under different keys may change places. -/
theorem put_comm [Std.TransOrd κ] [Std.LawfulEqOrd κ] [DecidableEq κ] (m : SortedMap κ α)
    {k₁ k₂ : κ} (h : k₁ ≠ k₂) (a₁ a₂ : Option α) :
    (m.put k₁ a₁).put k₂ a₂ = (m.put k₂ a₂).put k₁ a₁ := by
  refine ext_get? fun k => ?_
  simp only [get?_put]
  by_cases h₁ : k = k₁
  · have h₂ : k ≠ k₂ := fun h₂ => h (h₁.symm.trans h₂)
    rw [if_neg h₂, if_pos h₁, if_pos h₁]
  · rw [if_neg h₁, if_neg h₁]

end SortedMap

end CreationGate
