import CreationGate.Evm.Gas
import CreationGate.Evm.Memory

/-!
# Memory with bytes stored

A memory is its size and the byte at each offset, where a byte that is not there is zero
(`Memory.ext_get`).  Storing a byte string makes room for it in whole words and writes it
(`Memory.store`): the bytes of the string are then where they were stored, every other byte is
what it was, and strings stored side by side are one string stored at once.
-/

namespace CreationGate

namespace Memory

/-! ## Byte by byte -/

theorem get_of_size_le {memory : Memory} {i : Nat} (h : memory.size ≤ i) : memory.get i = 0 := by
  rw [get, Array.getElem?_eq_none h]
  rfl

theorem ext_get {m₁ m₂ : Memory} (hsize : m₁.size = m₂.size) (hget : ∀ i, m₁.get i = m₂.get i) :
    m₁ = m₂ := by
  rcases m₁ with ⟨cells₁⟩
  rcases m₂ with ⟨cells₂⟩
  have hcells : cells₁ = cells₂ := by
    refine Array.ext hsize fun i h₁ h₂ => ?_
    have hi := hget i
    simp only [get, Array.getElem?_eq_getElem h₁, Array.getElem?_eq_getElem h₂,
      Option.getD_some] at hi
    exact hi
  rw [hcells]

theorem size_grow (memory : Memory) (n : Nat) : (memory.grow n).size = max memory.size n := by
  simp only [grow, size, Array.size_append, Array.size_replicate]
  omega

/-- Grown bytes are zero, as they were when they were not there. -/
theorem get_grow (memory : Memory) (n i : Nat) : (memory.grow n).get i = memory.get i := by
  by_cases hi : i < memory.size
  · rw [get, grow, Array.getElem?_append_left hi, get]
  · have hnone : memory.get i = 0 := get_of_size_le (Nat.le_of_not_lt hi)
    rw [hnone, get, grow, Array.getElem?_append_right (Nat.le_of_not_lt hi),
      Array.getElem?_replicate]
    split <;> rfl

theorem grow_of_le {memory : Memory} {n : Nat} (h : n ≤ memory.size) : memory.grow n = memory := by
  refine ext_get ?_ (memory.get_grow n)
  rw [size_grow, Nat.max_eq_left h]

theorem size_writeCells (cells : Array UInt8) (offset : Nat) (bytes : Bytes) :
    (writeCells cells offset bytes).size = cells.size := by
  induction bytes generalizing cells offset with
  | nil => rfl
  | cons b rest ih => rw [writeCells, ih, Array.size_setIfInBounds]

theorem size_write (memory : Memory) (offset : Nat) (bytes : Bytes) :
    (memory.write offset bytes).size = memory.size :=
  size_writeCells memory.cells offset bytes

theorem getElem?_writeCells (cells : Array UInt8) (offset : Nat) (bytes : Bytes)
    (h : offset + bytes.length ≤ cells.size) (i : Nat) :
    (writeCells cells offset bytes)[i]?
      = if offset ≤ i ∧ i < offset + bytes.length then bytes[i - offset]? else cells[i]? := by
  induction bytes generalizing cells offset with
  | nil => rw [if_neg (by rw [List.length_nil]; omega), writeCells]
  | cons b rest ih =>
    rw [List.length_cons] at h ⊢
    rw [writeCells, ih _ _ (by rw [Array.size_setIfInBounds]; omega),
      Array.getElem?_setIfInBounds]
    by_cases hi : i = offset
    · -- The byte just written is not written again.
      subst hi
      rw [if_neg (by omega), if_pos rfl, if_pos (by omega), if_pos (by omega), Nat.sub_self,
        List.getElem?_cons_zero]
    · rw [if_neg (Ne.symm hi)]
      by_cases hlater : offset + 1 ≤ i ∧ i < offset + 1 + rest.length
      · obtain ⟨k, hk⟩ : ∃ k, i - offset = k + 1 := ⟨i - offset - 1, by omega⟩
        rw [if_pos hlater, if_pos (by omega), hk, List.getElem?_cons_succ]
        congr 1
        omega
      · rw [if_neg hlater, if_neg (by omega)]

theorem get_write {memory : Memory} {offset : Nat} {bytes : Bytes}
    (h : offset + bytes.length ≤ memory.size) (i : Nat) :
    (memory.write offset bytes).get i
      = if offset ≤ i ∧ i < offset + bytes.length then bytes[i - offset]?.getD 0
        else memory.get i := by
  rw [get, write, getElem?_writeCells _ _ _ h]
  split <;> rfl

theorem read_eq {memory : Memory} {offset length : Nat} (h : offset + length ≤ memory.size) :
    memory.read offset length = (List.range length).map fun i => memory.get (offset + i) := by
  have hsize : offset + length ≤ memory.cells.size := h
  refine List.ext_getElem ?_ fun i _ hi => ?_
  · rw [read, Array.length_toList, Array.size_extract, List.length_map, List.length_range]
    omega
  · rw [List.length_map, List.length_range] at hi
    have hcell : offset + i < memory.cells.size := by omega
    rw [List.getElem_map, List.getElem_range, get, Array.getElem?_eq_getElem hcell]
    simp [read]

/-! ## Storing -/

/-- The memory with a byte string stored from an offset on, after making room for it. -/
def store (memory : Memory) (offset : Nat) (bytes : Bytes) : Memory :=
  if bytes = [] then memory
  else (memory.grow (32 * Gas.words (offset + bytes.length))).write offset bytes

theorem store_nil (memory : Memory) (offset : Nat) : memory.store offset [] = memory := if_pos rfl

theorem le_words (n : Nat) : n ≤ 32 * Gas.words n := by
  unfold Gas.words
  omega

theorem size_store (memory : Memory) (offset : Nat) {bytes : Bytes} (h : bytes ≠ []) :
    (memory.store offset bytes).size
      = max memory.size (32 * Gas.words (offset + bytes.length)) := by
  rw [store, if_neg h, size_write, size_grow]

theorem get_store (memory : Memory) (offset : Nat) (bytes : Bytes) (i : Nat) :
    (memory.store offset bytes).get i
      = if offset ≤ i ∧ i < offset + bytes.length then bytes[i - offset]?.getD 0
        else memory.get i := by
  by_cases hbytes : bytes = []
  · rw [hbytes, store_nil, if_neg (by rw [List.length_nil]; omega)]
  · have hroom := le_words (offset + bytes.length)
    have hfits : offset + bytes.length
        ≤ (memory.grow (32 * Gas.words (offset + bytes.length))).size := by
      rw [size_grow]
      omega
    rw [store, if_neg hbytes, get_write hfits, get_grow]

/-- Strings stored side by side are one string stored at once. -/
theorem store_append (memory : Memory) (offset : Nat) (first second : Bytes) :
    (memory.store offset first).store (offset + first.length) second
      = memory.store offset (first ++ second) := by
  by_cases hfirst : first = []
  · subst hfirst
    rw [store_nil, List.length_nil, Nat.add_zero, List.nil_append]
  by_cases hsecond : second = []
  · rw [hsecond, store_nil, List.append_nil]
  have hboth : first ++ second ≠ [] := List.append_ne_nil_of_left_ne_nil hfirst second
  refine ext_get ?_ fun i => ?_
  · rw [size_store _ _ hsecond, size_store _ _ hfirst, size_store _ _ hboth, List.length_append]
    unfold Gas.words
    omega
  · rw [get_store, get_store, get_store, List.length_append]
    by_cases hlow : offset ≤ i
    · by_cases hleft : i < offset + first.length
      · rw [if_neg (by omega), if_pos (by omega), if_pos (by omega),
          List.getElem?_append_left (by omega)]
      · rw [if_neg (c := offset ≤ i ∧ i < offset + first.length) (by omega)]
        by_cases hright : i < offset + first.length + second.length
        · rw [if_pos (by omega), if_pos (by omega), List.getElem?_append_right (by omega)]
          congr 2
          omega
        · rw [if_neg (by omega), if_neg (by omega)]
    · rw [if_neg (by omega), if_neg (by omega), if_neg (by omega)]

/-- What is stored is read back, whatever is stored behind it. -/
theorem read_store (memory : Memory) (offset : Nat) (bytes behind : Bytes) :
    (memory.store offset (bytes ++ behind)).read offset bytes.length = bytes := by
  by_cases hboth : bytes ++ behind = []
  · obtain ⟨rfl, rfl⟩ := List.append_eq_nil_iff.mp hboth
    rw [read, List.length_nil, Nat.add_zero, Array.extract_empty_of_stop_le_start (Nat.le_refl _)]
  have hroom := le_words (offset + (bytes ++ behind).length)
  have hlength : (bytes ++ behind).length = bytes.length + behind.length := List.length_append
  have hfits : offset + bytes.length ≤ (memory.store offset (bytes ++ behind)).size := by
    rw [size_store _ _ hboth]
    omega
  rw [read_eq hfits]
  refine List.ext_getElem ?_ fun i _ hi => ?_
  · rw [List.length_map, List.length_range]
  · rw [List.getElem_map, List.getElem_range, get_store, if_pos (by omega),
      Nat.add_sub_cancel_left, List.getElem?_append_left hi, List.getElem?_eq_getElem hi]
    rfl

end Memory

end CreationGate
