import CreationGate.Evm.Frame
import CreationGate.Proofs.Assembly.Emitted
import CreationGate.Proofs.Assembly.Stored

/-!
# Runs through assembled code

A run that succeeds was halted by none of its instructions.  So behind a push or a store it
stands on a machine of which only the gas is not told (`Machine.Moved`), and by induction on
the pieces it has stored a whole byte string behind `stores` (`Machine.run_stores`).

Gas and the price of the memory that was paid for add up to no more than what a frame began
with (`Machine.budget`).  With a 64-bit amount of gas this bounds the memory, so no offset and
no length in a run that succeeds leaves 64 bits (`Machine.fits_of_isSuccess`).
-/

namespace CreationGate

/-! ## What instructions do to a machine -/

theorem Gas.memory_mono {v w : Nat} (h : v ≤ w) : Gas.memory v ≤ Gas.memory w := by
  have hsquare : v * v / 512 ≤ w * w / 512 := Nat.div_le_div_right (Nat.mul_le_mul h h)
  unfold Gas.memory
  omega

/-- Pieces are stored side by side: only behind the last one may the offset leave 64 bits, and
nothing is stored there. -/
theorem Memory.store_pieces (memory : Memory) {offset : UInt64} {piece : Bytes}
    {pieces : List Bytes} (hpiece : piece.length = 32)
    (hfits : offset.toNat + 32 * (pieces.length + 1) ≤ 2 ^ 64) :
    (memory.store offset.toNat piece).store (offset + 32).toNat pieces.flatten
      = memory.store offset.toNat (piece :: pieces).flatten := by
  have hsum : (offset + 32).toNat = (offset.toNat + 32) % 2 ^ 64 := UInt64.toNat_add offset 32
  rw [List.flatten_cons, ← store_append, hpiece]
  cases pieces with
  | nil => rw [List.flatten_nil, store_nil, store_nil]
  | cons later pieces =>
    rw [List.length_cons] at hfits
    rw [hsum, Nat.mod_eq_of_lt (by omega)]

namespace Machine

theorem bind_eq_ok {ε α β : Type} {x : Except ε α} {f : α → Except ε β} {b : β}
    (h : (x >>= f) = .ok b) : ∃ a, x = .ok a ∧ f a = .ok b := by
  cases x with
  | error e => cases h
  | ok a => exact ⟨a, rfl, h⟩

theorem charge_eq_ok {m m' : Machine} {price : Nat} (h : m.charge price = .ok m') :
    price ≤ m.gas ∧ m' = { m with gas := m.gas - price } := by
  unfold charge at h
  split at h
  next hpays => exact ⟨hpays, (Except.ok.inj h).symm⟩
  next => cases h

theorem push_eq_ok {m m' : Machine} {w : Word} (h : m.push w = .ok m') :
    m' = { m with stack := w :: m.stack } := by
  unfold push at h
  split at h
  next => exact (Except.ok.inj h).symm
  next => cases h

theorem index_eq_ok {w : Word} {n : Nat} (h : index w = .ok n) : n = w.toNat := by
  unfold index at h
  split at h
  next => exact (Except.ok.inj h).symm
  next => cases h

/-- The gas that is left together with the price of the memory that there is. -/
def budget (m : Machine) : Nat := m.gas + Gas.memory (m.memory.size / 32)

/-- The machine with another stack and memory, paid for out of its budget; nothing else of it
is changed. -/
structure Moved (m m' : Machine) (stack : List Word) (memory : Memory) : Prop where
  eq : m' = { m with stack := stack, memory := memory, gas := m'.gas }
  budget_le : m'.budget ≤ m.budget

namespace Moved

variable {m m' m'' : Machine} {stack : List Word} {memory : Memory}

theorem stack_eq (h : m.Moved m' stack memory) : m'.stack = stack := by rw [h.eq]

theorem memory_eq (h : m.Moved m' stack memory) : m'.memory = memory := by rw [h.eq]

theorem refl (m : Machine) : m.Moved m m.stack m.memory := ⟨rfl, Nat.le_refl _⟩

theorem trans {stack' : List Word} {memory' : Memory} (h : m.Moved m' stack memory)
    (h' : m'.Moved m'' stack' memory') : m.Moved m'' stack' memory' := by
  refine ⟨?_, Nat.le_trans h'.budget_le h.budget_le⟩
  rw [h'.eq, h.eq]

/-- Gas alone is spent. -/
theorem of_gas_le {gas : Nat} (h : gas ≤ m.gas) :
    m.Moved { m with stack := stack, gas := gas } stack m.memory :=
  ⟨rfl, Nat.add_le_add_right h _⟩

end Moved

theorem moved_pushImmediate {m m' : Machine} {spec : Spec} {immediate : Bytes}
    (h : m.pushImmediate spec immediate = .ok m') :
    m.Moved m' (Word.ofBytes immediate :: m.stack) m.memory := by
  obtain ⟨charged, hcharge, hpushed⟩ := bind_eq_ok h
  obtain ⟨_, rfl⟩ := charge_eq_ok hcharge
  simp only at hpushed
  split at hpushed
  next => cases hpushed
  next =>
    obtain rfl := push_eq_ok hpushed
    exact .of_gas_le (Nat.sub_le _ _)

/-- Memory grows to the words that are asked for and is paid by the word, which is nothing
where it was that large before. -/
theorem reach_eq (m : Machine) (offset length : Nat) :
    m.reach offset length
      = if Gas.memory (Gas.words (offset + length)) - Gas.memory (m.memory.size / 32) ≤ m.gas then
          .ok { m with
            gas := m.gas - (Gas.memory (Gas.words (offset + length))
              - Gas.memory (m.memory.size / 32))
            memory := m.memory.grow (32 * Gas.words (offset + length)) }
        else .error .memoryLimit := by
  unfold reach
  simp only
  by_cases hlarge : Gas.words (offset + length) ≤ m.memory.size / 32
  · have hfree : Gas.memory (Gas.words (offset + length)) - Gas.memory (m.memory.size / 32) = 0 :=
      Nat.sub_eq_zero_of_le (Gas.memory_mono hlarge)
    rw [if_pos hlarge, hfree, if_pos (Nat.zero_le _), Memory.grow_of_le (by omega), Nat.sub_zero]
  · rw [if_neg hlarge]

theorem moved_reach {m m' : Machine} {offset length : Nat}
    (h : m.reach offset length = .ok m') :
    m.Moved m' m.stack (m.memory.grow (32 * Gas.words (offset + length))) := by
  rw [reach_eq] at h
  split at h
  next hpays =>
    obtain rfl := Except.ok.inj h
    refine ⟨rfl, ?_⟩
    simp only [budget, Memory.size_grow]
    -- Either the memory was as large before, or it is as large as was asked for now.
    rcases Nat.le_total m.memory.size (32 * Gas.words (offset + length)) with hgrows | hkeeps
    · have hmore := Gas.memory_mono (v := m.memory.size / 32)
        (w := Gas.words (offset + length)) (by omega)
      rw [Nat.max_eq_right hgrows, Nat.mul_div_cancel_left _ (by decide)]
      omega
    · rw [Nat.max_eq_left hkeeps]
      omega
  next => cases h

theorem moved_mstore {m m' : Machine} {offset value : Word} {stack : List Word}
    (hstack : m.stack = offset :: value :: stack) (h : m.mstore = .ok m') :
    m.Moved m' stack (m.memory.store offset.toNat value.bytes) := by
  obtain ⟨charged, hcharge, h⟩ := bind_eq_ok h
  obtain ⟨_, rfl⟩ := charge_eq_ok hcharge
  obtain ⟨⟨a, b, popped⟩, hpop, h⟩ := bind_eq_ok h
  simp only [pop2, hstack, Except.ok.injEq, Prod.mk.injEq] at hpop
  obtain ⟨rfl, rfl, rfl⟩ := hpop
  obtain ⟨n, hindex, h⟩ := bind_eq_ok h
  obtain rfl := index_eq_ok hindex
  obtain ⟨reached, hreach, h⟩ := bind_eq_ok h
  have hspent : m.Moved { m with stack := stack, gas := m.gas - 3 } stack m.memory :=
    .of_gas_le (Nat.sub_le _ _)
  have hroom := hspent.trans (moved_reach hreach)
  have hbytes : value.bytes ≠ [] := by
    intro hnil
    have hlength := value.length_bytes
    rw [hnil] at hlength
    cases hlength
  have hstored : reached.memory.write offset.toNat value.bytes
      = m.memory.store offset.toNat value.bytes := by
    rw [hroom.memory_eq, Memory.store, if_neg hbytes, value.length_bytes]
  obtain rfl := Except.ok.inj h
  refine ⟨?_, ?_⟩
  · rw [hroom.eq]
    simp only [hstored, ← hroom.memory_eq]
  · have hsize : (reached.memory.write offset.toNat value.bytes).size = reached.memory.size :=
      Memory.size_write _ _ _
    have hle := hroom.budget_le
    simp only [budget, hsize] at hle ⊢
    exact hle

/-- A 64-bit budget pays for less than `2 ^ 42` bytes of memory. -/
theorem size_lt_of_budget {m : Machine} (h : m.budget ≤ maxUInt64) : m.memory.size < 2 ^ 42 := by
  have hwords : m.memory.size / 32 < 2 ^ 37 := by
    refine Nat.lt_of_not_le fun hmany => ?_
    have hprice := Gas.memory_mono hmany
    have htoo : maxUInt64 < Gas.memory (2 ^ 37) := by decide
    unfold budget at h
    omega
  omega

/-! ## Runs that succeed -/

section Runs

variable {context : FrameContext} {create : Creator} {m : Machine} {host : Host}
  {rest : List Instruction}

/-- A run that succeeds was not halted by an instruction on the machine alone. -/
theorem run_ofMachine {instruction : Instruction} {outcome : Except HaltReason Machine}
    (hstep : m.step host.countStep context create instruction
      = .ofMachine m host.countStep outcome)
    (h : (m.run host context create (instruction :: rest)).1.isSuccess = true) :
    ∃ m', outcome = .ok m' ∧ m.run host context create (instruction :: rest)
      = m'.run host.countStep context create rest := by
  rw [run, hstep] at h ⊢
  cases outcome with
  | error reason => cases h
  | ok m' => exact ⟨m', rfl, rfl⟩

theorem run_push {immediate : Bytes}
    (h : (m.run host context create (.push immediate :: rest)).1.isSuccess = true) :
    ∃ m', m.run host context create (.push immediate :: rest)
        = m'.run host.countStep context create rest
      ∧ m.Moved m' (Word.ofBytes immediate :: m.stack) m.memory := by
  obtain ⟨m', hpush, hrun⟩ := run_ofMachine rfl h
  exact ⟨m', hrun, moved_pushImmediate hpush⟩

theorem run_mstore {offset value : Word} {stack : List Word}
    (hstack : m.stack = offset :: value :: stack)
    (h : (m.run host context create (.mstore :: rest)).1.isSuccess = true) :
    ∃ m', m.run host context create (.mstore :: rest)
        = m'.run host.countStep context create rest
      ∧ m.Moved m' stack (m.memory.store offset.toNat value.bytes) := by
  obtain ⟨m', hstore, hrun⟩ := run_ofMachine rfl h
  exact ⟨m', hrun, moved_mstore hstack hstore⟩

/-- By induction on the immediates: they end up on the stack, the last one on top. -/
theorem run_pushes (immediates : List Bytes)
    (h : (m.run host context create (immediates.map .push ++ rest)).1.isSuccess = true) :
    ∃ m' host', m.run host context create (immediates.map .push ++ rest)
        = m'.run host' context create rest
      ∧ host'.journal = host.journal
      ∧ m.Moved m' ((immediates.map Word.ofBytes).reverse ++ m.stack) m.memory := by
  induction immediates generalizing m host with
  | nil => exact ⟨m, host, rfl, rfl, .refl m⟩
  | cons immediate immediates ih =>
    rw [List.map_cons, List.cons_append] at h ⊢
    obtain ⟨m₁, hrun₁, hmoved₁⟩ := run_push h
    rw [hrun₁] at h ⊢
    obtain ⟨m₂, host₂, hrun₂, hjournal, hmoved₂⟩ := ih h
    rw [hmoved₁.stack_eq, hmoved₁.memory_eq] at hmoved₂
    refine ⟨m₂, host₂, hrun₂, hjournal, ?_⟩
    rw [List.map_cons, List.reverse_cons, List.append_assoc, List.singleton_append]
    exact hmoved₁.trans hmoved₂

/-- One piece and its offset are pushed and stored. -/
theorem run_storePiece {offset : UInt64} {piece : Bytes} (hpiece : piece.length = 32)
    (h : (m.run host context create (.push piece :: .push (Bytes.ofUInt64 offset) :: .mstore
      :: rest)).1.isSuccess = true) :
    ∃ m' host', m.run host context create
          (.push piece :: .push (Bytes.ofUInt64 offset) :: .mstore :: rest)
        = m'.run host' context create rest
      ∧ host'.journal = host.journal
      ∧ m.Moved m' m.stack (m.memory.store offset.toNat piece) := by
  obtain ⟨m₁, host₁, hrun₁, hjournal, hmoved₁⟩ :=
    run_pushes [piece, Bytes.ofUInt64 offset] h
  simp only [List.map_cons, List.map_nil, List.cons_append, List.nil_append] at hrun₁
  rw [hrun₁] at h ⊢
  obtain ⟨m₂, hrun₂, hmoved₂⟩ := run_mstore hmoved₁.stack_eq h
  rw [hmoved₁.memory_eq, Word.toNat_ofUInt64, Word.bytes_ofBytes hpiece] at hmoved₂
  exact ⟨m₂, host₁.countStep, hrun₂, hjournal, hmoved₁.trans hmoved₂⟩

variable {offset : UInt64} {pieces : List Bytes}

/-- By induction on the pieces: side by side they are the byte string that is stored. -/
theorem run_stores (hpieces : ∀ piece ∈ pieces, piece.length = 32)
    (hfits : offset.toNat + 32 * pieces.length ≤ 2 ^ 64)
    (h : (m.run host context create (Assembly.stores offset pieces ++ rest)).1.isSuccess = true) :
    ∃ m' host', m.run host context create (Assembly.stores offset pieces ++ rest)
        = m'.run host' context create rest
      ∧ host'.journal = host.journal
      ∧ m.Moved m' m.stack (m.memory.store offset.toNat pieces.flatten) := by
  induction pieces generalizing m host offset with
  | nil =>
    rw [List.flatten_nil, Memory.store_nil]
    exact ⟨m, host, rfl, rfl, .refl m⟩
  | cons piece pieces ih =>
    have hpiece : piece.length = 32 := hpieces piece List.mem_cons_self
    rw [List.length_cons] at hfits
    rw [Assembly.stores, List.cons_append, List.cons_append, List.cons_append] at h ⊢
    obtain ⟨m₁, host₁, hrun₁, hjournal₁, hmoved₁⟩ := run_storePiece hpiece h
    rw [hrun₁] at h ⊢
    have hsum : (offset + 32).toNat = (offset.toNat + 32) % 2 ^ 64 := UInt64.toNat_add offset 32
    obtain ⟨m₂, host₂, hrun₂, hjournal₂, hmoved₂⟩ :=
      ih (fun later hlater => hpieces later (List.mem_cons_of_mem piece hlater)) (by omega) h
    refine ⟨m₂, host₂, hrun₂, hjournal₂.trans hjournal₁, ?_⟩
    rw [hmoved₁.stack_eq, hmoved₁.memory_eq, Memory.store_pieces _ hpiece hfits] at hmoved₂
    exact hmoved₁.trans hmoved₂

/-- By induction on the pieces: each one that is stored is within the memory, which the budget
bounds. -/
theorem fits_of_isSuccess (hpieces : ∀ piece ∈ pieces, piece.length = 32)
    (hoffset : offset.toNat < 2 ^ 42) (hbudget : m.budget ≤ maxUInt64)
    (h : (m.run host context create (Assembly.stores offset pieces ++ rest)).1.isSuccess = true) :
    offset.toNat + 32 * pieces.length < 2 ^ 42 := by
  induction pieces generalizing m host offset with
  | nil => exact hoffset
  | cons piece pieces ih =>
    have hpiece : piece.length = 32 := hpieces piece List.mem_cons_self
    rw [Assembly.stores, List.cons_append, List.cons_append, List.cons_append] at h
    obtain ⟨m₁, host₁, hrun₁, _, hmoved₁⟩ := run_storePiece hpiece h
    rw [hrun₁] at h
    have hbudget₁ := Nat.le_trans hmoved₁.budget_le hbudget
    have hsize := size_lt_of_budget hbudget₁
    have hroom := Memory.le_words (offset.toNat + piece.length)
    rw [hmoved₁.memory_eq, Memory.size_store _ _ (List.ne_nil_of_length_eq_add_one hpiece)]
      at hsize
    have hsum : (offset + 32).toNat = (offset.toNat + 32) % 2 ^ 64 := UInt64.toNat_add offset 32
    have hnext := ih (fun later hlater => hpieces later (List.mem_cons_of_mem piece hlater))
      (by omega) hbudget₁ h
    rw [List.length_cons]
    omega

end Runs

end Machine

end CreationGate
