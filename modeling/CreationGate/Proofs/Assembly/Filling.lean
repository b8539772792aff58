import CreationGate.Proofs.Assembly.Runs
import CreationGate.Proofs.Assembly.ShortestPush

/-!
# Memory is filled by stores

What code does to a machine is told before it runs once its price is known (`Machine.Spends`):
with that much gas the run goes on behind the code on a machine that is told whole, and with
less it halts inside.  Prices of code that follows other code add up, and what the stores pay for
memory telescopes to the price of the memory at the end less that of the one at the start.
So by induction on the pieces a byte string is stored at a price in closed form
(`Machine.spends_stores`).
-/

namespace CreationGate

namespace Memory

/-! ## Memory that is new -/

/-- The price of a memory beyond that of an earlier one. -/
def growth (before after : Memory) : Nat :=
  Gas.memory (after.size / 32) - Gas.memory (before.size / 32)

theorem growth_self (memory : Memory) : memory.growth memory = 0 := Nat.sub_self _

theorem growth_add {m₁ m₂ m₃ : Memory} (h₁₂ : m₁.size ≤ m₂.size) (h₂₃ : m₂.size ≤ m₃.size) :
    m₁.growth m₂ + m₂.growth m₃ = m₁.growth m₃ := by
  have hfirst := Gas.memory_mono (Nat.div_le_div_right (c := 32) h₁₂)
  have hsecond := Gas.memory_mono (Nat.div_le_div_right (c := 32) h₂₃)
  unfold growth
  omega

theorem growth_grow (memory : Memory) (w : Nat) :
    memory.growth (memory.grow (32 * w)) = Gas.memory w - Gas.memory (memory.size / 32) := by
  rw [growth, size_grow]
  rcases Nat.le_total memory.size (32 * w) with hgrows | hkeeps
  · rw [Nat.max_eq_right hgrows, Nat.mul_div_cancel_left _ (by decide)]
  · have hprice := Gas.memory_mono (v := w) (w := memory.size / 32) (by omega)
    rw [Nat.max_eq_left hkeeps]
    omega

theorem size_le_size_store (memory : Memory) (offset : Nat) (bytes : Bytes) :
    memory.size ≤ (memory.store offset bytes).size := by
  by_cases hbytes : bytes = []
  · rw [hbytes, store_nil]
  · rw [size_store _ _ hbytes]
    exact Nat.le_max_left _ _

/-! ## Memory that is filled -/

/-- The memory once a byte string was stored from an offset on in whole words. -/
structure Filled (before after : Memory) (offset : Nat) (data : Bytes) : Prop where
  stored : ∀ (i : Nat) (h : i < data.length), after.get (offset + i) = data[i]
  padded : ∀ i, data.length ≤ i → i < 32 * Gas.words data.length → after.get (offset + i) = 0
  elsewhere : ∀ i, i < offset ∨ offset + 32 * Gas.words data.length ≤ i →
    after.get i = before.get i
  size_eq : data ≠ [] → after.size
    = max before.size (32 * Gas.words (offset + 32 * Gas.words data.length))
  empty : data = [] → after = before

theorem filled_store (memory : Memory) (offset : Nat) (data : Bytes) :
    memory.Filled (memory.store offset (Assembly.padRight 32 data)) offset data := by
  have hlength : (Assembly.padRight 32 data).length = 32 * Gas.words data.length :=
    Assembly.length_padRight data
  have hroom := le_words data.length
  refine ⟨?_, ?_, ?_, ?_, ?_⟩
  · intro i hi
    rw [get_store, if_pos (by omega), Nat.add_sub_cancel_left, Assembly.padRight,
      List.getElem?_append_left hi, List.getElem?_eq_getElem hi]
    rfl
  · intro i hbehind hi
    rw [get_store, if_pos (by omega), Nat.add_sub_cancel_left, Assembly.padRight,
      List.getElem?_append_right hbehind, Bytes.zeros, List.getElem?_replicate]
    split <;> rfl
  · intro i hi
    rw [get_store, if_neg (by omega)]
  · intro hdata
    have hpadded : Assembly.padRight 32 data ≠ [] := List.append_ne_nil_of_left_ne_nil hdata _
    rw [size_store _ _ hpadded, hlength]
  · rintro rfl
    exact store_nil memory offset

end Memory

namespace Assembly

/-! ## Stores one by one -/

theorem length_stores (offset : UInt64) (pieces : List Bytes) :
    (stores offset pieces).length = 3 * pieces.length := by
  induction pieces generalizing offset with
  | nil => rfl
  | cons piece pieces ih =>
    rw [stores, List.length_cons, List.length_cons, List.length_cons, ih, List.length_cons]
    omega

/-- The price of the instructions that store some number of pieces, apart from the memory. -/
def storesPrice (offset : UInt64) (pieces : Nat) : Nat :=
  9 * pieces - if offset = 0 then 1 else 0

theorem storesPrice_succ {offset : UInt64} {n : Nat}
    (hfits : offset.toNat + 32 * (n + 1) ≤ 2 ^ 64) :
    storesPrice offset 1 + storesPrice (offset + 32) n = storesPrice offset (n + 1) := by
  have hsum : (offset + 32).toNat = (offset.toNat + 32) % 2 ^ 64 := UInt64.toNat_add offset 32
  have hwraps : offset + 32 = 0 → n = 0 := by
    intro hzero
    rw [hzero, UInt64.toNat_zero] at hsum
    omega
  unfold storesPrice
  by_cases hlast : offset + 32 = 0
  · rw [hwraps hlast, Nat.mul_zero, Nat.zero_sub, Nat.add_zero]
  · rw [if_neg hlast]
    split <;> omega

end Assembly

/-! ## Code that has a price -/

/-- The host with more instructions begun. -/
def Host.countSteps (host : Host) (n : Nat) : Host :=
  { host with tally := { host.tally with steps := host.tally.steps + n } }

theorem Host.countSteps_countSteps (host : Host) (n k : Nat) :
    (host.countSteps n).countSteps k = host.countSteps (n + k) := by
  rw [countSteps, countSteps, countSteps, Nat.add_assoc]

namespace Machine

/-- The machine with another stack and memory, for which it paid. -/
def paid (m : Machine) (price : Nat) (stack : List Word) (memory : Memory) : Machine :=
  { m with stack := stack, memory := memory, gas := m.gas - price }

@[simp] theorem stack_paid (m : Machine) (price : Nat) (stack : List Word) (memory : Memory) :
    (m.paid price stack memory).stack = stack := rfl

@[simp] theorem memory_paid (m : Machine) (price : Nat) (stack : List Word) (memory : Memory) :
    (m.paid price stack memory).memory = memory := rfl

@[simp] theorem gas_paid (m : Machine) (price : Nat) (stack : List Word) (memory : Memory) :
    (m.paid price stack memory).gas = m.gas - price := rfl

theorem paid_paid (m : Machine) (price price' : Nat) (stack stack' : List Word)
    (memory memory' : Memory) :
    (m.paid price stack memory).paid price' stack' memory'
      = m.paid (price + price') stack' memory' := by
  rw [paid, paid, paid, Nat.sub_sub]

/-- Code that brings the machine to a stack and a memory at a price.  With that much gas
nothing else is changed and what follows the code is run; with less the run halts inside the
code. -/
structure Spends (context : FrameContext) (create : Creator) (code : List Instruction)
    (price : Nat) (m : Machine) (stack : List Word) (memory : Memory) : Prop where
  run_eq : price ≤ m.gas → ∀ (host : Host) (rest : List Instruction),
    m.run host context create (code ++ rest)
      = (m.paid price stack memory).run (host.countSteps code.length) context create rest
  halts : m.gas < price → ∀ (host : Host) (rest : List Instruction),
    ∃ reason m' host', m.run host context create (code ++ rest)
      = (.halted reason, [], m', host') ∧ host'.journal = host.journal

section Spends

variable {context : FrameContext} {create : Creator} {code code' : List Instruction}
  {price price' : Nat} {m : Machine} {stack stack' : List Word} {memory memory' : Memory}

theorem Spends.nil : m.Spends context create [] 0 m.stack m.memory := by
  refine ⟨fun _ host rest => rfl, fun hshort => ?_⟩
  exact absurd hshort (Nat.not_lt_zero _)

theorem Spends.trans (h : m.Spends context create code price stack memory)
    (h' : (m.paid price stack memory).Spends context create code' price' stack' memory') :
    m.Spends context create (code ++ code') (price + price') stack' memory' := by
  have hgas := m.gas_paid price stack memory
  constructor
  · intro hpays host rest
    rw [List.append_assoc, h.run_eq (by omega), h'.run_eq (by omega), paid_paid,
      Host.countSteps_countSteps, List.length_append]
  · intro hshort host rest
    rw [List.append_assoc]
    by_cases hfirst : m.gas < price
    · exact h.halts hfirst host (code' ++ rest)
    · rw [h.run_eq (by omega)]
      exact h'.halts (by omega) (host.countSteps code.length) rest

/-- An instruction on the machine alone that fails exactly below its price. -/
theorem Spends.ofMachine {instruction : Instruction} {outcome : Except HaltReason Machine}
    (hstep : ∀ host, m.step host context create instruction = .ofMachine m host outcome)
    (hpays : price ≤ m.gas → outcome = .ok (m.paid price stack memory))
    (hshort : m.gas < price → ∃ reason, outcome = .error reason) :
    m.Spends context create [instruction] price stack memory := by
  constructor
  · intro hgas host rest
    rw [List.singleton_append, run, hstep, hpays hgas]
    rfl
  · intro hgas host rest
    obtain ⟨reason, houtcome⟩ := hshort hgas
    refine ⟨reason, m, host.countStep, ?_, rfl⟩
    rw [List.singleton_append, run, hstep, houtcome]
    rfl

/-! ## Pushes and stores -/

def pushPrice (immediate : Bytes) : Nat := if immediate.isEmpty then 2 else 3

theorem spends_push (hspec : context.config.spec.includes .shanghai = true)
    (hroom : m.stack.length < 1024) (immediate : Bytes) :
    m.Spends context create [.push immediate] (pushPrice immediate)
      (Word.ofBytes immediate :: m.stack) m.memory := by
  refine .ofMachine (fun host => rfl) (fun hpays => ?_) (fun hshort => ⟨.outOfGas, ?_⟩)
  · have hcharge : m.charge (pushPrice immediate)
        = .ok (m.paid (pushPrice immediate) m.stack m.memory) := if_pos hpays
    have hpush : (m.paid (pushPrice immediate) m.stack m.memory).push (Word.ofBytes immediate)
        = .ok (m.paid (pushPrice immediate) (Word.ofBytes immediate :: m.stack) m.memory) :=
      if_pos hroom
    rw [pushImmediate, ← pushPrice, hcharge, hspec, Bool.not_true, Bool.and_false]
    exact hpush
  · have hcharge : m.charge (pushPrice immediate) = .error .outOfGas :=
      if_neg (Nat.not_le_of_lt hshort)
    rw [pushImmediate, ← pushPrice, hcharge]
    rfl

theorem reach_eq_paid (m : Machine) (offset length : Nat) :
    m.reach offset length
      = if m.memory.growth (m.memory.grow (32 * Gas.words (offset + length))) ≤ m.gas then
          .ok (m.paid (m.memory.growth (m.memory.grow (32 * Gas.words (offset + length)))) m.stack
            (m.memory.grow (32 * Gas.words (offset + length))))
        else .error .memoryLimit := by
  rw [reach_eq, Memory.growth_grow, paid]

/-- A store pays for itself first, and then for the memory that is new. -/
theorem spends_mstore {offset value : Word} (hstack : m.stack = offset :: value :: stack)
    (hoffset : offset.toNat ≤ maxUInt64) :
    m.Spends context create [.mstore]
      (3 + m.memory.growth (m.memory.store offset.toNat value.bytes))
      stack (m.memory.store offset.toNat value.bytes) := by
  have hindex : index offset = .ok offset.toNat := if_pos hoffset
  have hpop : (m.paid 3 m.stack m.memory).pop2 = .ok (offset, value, m.paid 3 stack m.memory) := by
    rw [pop2, paid, hstack]
    rfl
  have hbytes : value.bytes ≠ [] := List.ne_nil_of_length_eq_add_one value.length_bytes
  have hstored : m.memory.store offset.toNat value.bytes
      = (m.memory.grow (32 * Gas.words (offset.toNat + 32))).write offset.toNat value.bytes := by
    rw [Memory.store, if_neg hbytes, value.length_bytes]
  have hprice : m.memory.growth (m.memory.store offset.toNat value.bytes)
      = m.memory.growth (m.memory.grow (32 * Gas.words (offset.toNat + 32))) := by
    rw [hstored, Memory.growth, Memory.size_write, Memory.growth]
  -- The memory that is new is paid out of the gas that the instruction itself leaves.
  have hreach := (m.paid 3 stack m.memory).reach_eq_paid offset.toNat 32
  rw [memory_paid, gas_paid, paid_paid] at hreach
  rw [hprice, hstored]
  refine .ofMachine (fun host => rfl) (fun hpays => ?_) (fun hshort => ?_)
  · have hcharge : m.charge 3 = .ok (m.paid 3 m.stack m.memory) := if_pos (by omega)
    rw [if_pos (by omega)] at hreach
    simp only [mstore, bind, Except.bind, pure, Except.pure, hcharge, hpop, hindex, hreach]
    rfl
  · by_cases hfixed : 3 ≤ m.gas
    · have hcharge : m.charge 3 = .ok (m.paid 3 m.stack m.memory) := if_pos hfixed
      rw [if_neg (by omega)] at hreach
      refine ⟨.memoryLimit, ?_⟩
      simp only [mstore, bind, Except.bind, hcharge, hpop, hindex, hreach]
    · have hcharge : m.charge 3 = .error .outOfGas := if_neg hfixed
      refine ⟨.outOfGas, ?_⟩
      rw [mstore, hcharge]
      rfl

/-- A piece and its offset are pushed and stored; the push of a zero is cheaper by one. -/
theorem spends_storePiece (hspec : context.config.spec.includes .shanghai = true)
    (hroom : m.stack.length + 2 ≤ 1024) (offset : UInt64) {piece : Bytes}
    (hpiece : piece.length = 32) :
    m.Spends context create [.push piece, .push (Bytes.ofUInt64 offset), .mstore]
      (Assembly.storesPrice offset 1 + m.memory.growth (m.memory.store offset.toNat piece))
      m.stack (m.memory.store offset.toNat piece) := by
  have hpiecePrice : pushPrice piece = 3 := by
    rw [pushPrice, List.isEmpty_eq_false_iff.mpr (List.ne_nil_of_length_eq_add_one hpiece)]
    rfl
  have hoffsetPrice : pushPrice (Bytes.ofUInt64 offset) = if offset = 0 then 2 else 3 := by
    simp only [pushPrice, List.isEmpty_iff, Bytes.ofUInt64_eq, Bytes.shortest_eq_nil_iff,
      ← UInt64.toNat_inj, UInt64.toNat_zero]
  have hfirst := @spends_push context create m hspec (by omega) piece
  rw [hpiecePrice] at hfirst
  have hroom' : (Word.ofBytes piece :: m.stack).length < 1024 := hroom
  have hboth := hfirst.trans (spends_push hspec hroom' (Bytes.ofUInt64 offset))
  have hword : (Word.ofBytes (Bytes.ofUInt64 offset)).toNat = offset.toNat :=
    Word.toNat_ofUInt64 offset
  have hindex : (Word.ofBytes (Bytes.ofUInt64 offset)).toNat ≤ maxUInt64 := by
    rw [hword]
    exact Nat.le_sub_one_of_lt offset.toNat_lt
  have hstored := hboth.trans (spends_mstore rfl hindex)
  have hprice (growth : Nat) : 3 + pushPrice (Bytes.ofUInt64 offset) + (3 + growth)
      = Assembly.storesPrice offset 1 + growth := by
    rw [hoffsetPrice, Assembly.storesPrice]
    split <;> omega
  rw [hword, Word.bytes_ofBytes hpiece, hprice] at hstored
  exact hstored

/-- By induction on the pieces: side by side they are the byte string that is stored, and what is
paid for the memory each one needs is paid for the memory that all of them need. -/
theorem spends_stores (hspec : context.config.spec.includes .shanghai = true)
    (hroom : m.stack.length + 2 ≤ 1024) {offset : UInt64} {pieces : List Bytes}
    (hpieces : ∀ piece ∈ pieces, piece.length = 32)
    (hfits : offset.toNat + 32 * pieces.length ≤ 2 ^ 64) :
    m.Spends context create (Assembly.stores offset pieces)
      (Assembly.storesPrice offset pieces.length
        + m.memory.growth (m.memory.store offset.toNat pieces.flatten))
      m.stack (m.memory.store offset.toNat pieces.flatten) := by
  induction pieces generalizing m offset with
  | nil =>
    rw [List.flatten_nil, Memory.store_nil, Memory.growth_self, Assembly.storesPrice,
      List.length_nil, Nat.mul_zero, Nat.zero_sub]
    exact .nil
  | cons piece pieces ih =>
    have hpiece : piece.length = 32 := hpieces piece List.mem_cons_self
    rw [List.length_cons] at hfits
    have hsum : (offset + 32).toNat = (offset.toNat + 32) % 2 ^ 64 := UInt64.toNat_add offset 32
    have hfirst := @spends_storePiece context create m hspec hroom offset piece hpiece
    have hlater (price : Nat) (memory : Memory) :=
      @ih (m.paid price m.stack memory) hroom (offset + 32)
        (fun later hmem => hpieces later (List.mem_cons_of_mem piece hmem)) (by omega)
    have hboth := hfirst.trans (hlater _ _)
    rw [memory_paid, stack_paid, Memory.store_pieces _ hpiece hfits] at hboth
    have hgrowth : m.memory.growth (m.memory.store offset.toNat piece)
          + (m.memory.store offset.toNat piece).growth
            (m.memory.store offset.toNat (piece :: pieces).flatten)
        = m.memory.growth (m.memory.store offset.toNat (piece :: pieces).flatten) := by
      refine Memory.growth_add (Memory.size_le_size_store _ _ _) ?_
      rw [← Memory.store_pieces _ hpiece hfits]
      exact Memory.size_le_size_store _ _ _
    have hprice := Assembly.storesPrice_succ hfits
    rw [Nat.add_add_add_comm, hgrowth, hprice] at hboth
    exact hboth

end Spends

end Machine

namespace Assembly

/-- **Code that stores a byte string fills memory with it and does nothing else.**  While the
offset stays within 64 bits and two places of the stack are free, a run spends a price that is
known beforehand: that of the instructions, and that of the memory beyond what was there.  With
that much gas it goes on behind the code with the bytes in memory, zeros behind them up to a
whole word and every other byte as it was; nothing but memory, gas and the count of steps is
changed.  With less gas it halts.  The empty string has no code. -/
theorem mstore_fills_memory {context : FrameContext} (create : Creator) {m : Machine}
    {offset : UInt64} {data : Bytes} (hspec : context.config.spec.includes .shanghai = true)
    (hroom : m.stack.length + 2 ≤ 1024)
    (hfits : offset.toNat + 32 * Gas.words data.length ≤ 2 ^ 64) :
    ∃ memory price, m.memory.Filled memory offset.toNat data
      ∧ price = storesPrice offset (Gas.words data.length) + m.memory.growth memory
      ∧ (price ≤ m.gas → ∀ host rest,
        m.run host context create (disassemble (mstore offset data ++ rest))
          = { m with memory := memory, gas := m.gas - price }.run
            (host.countSteps (3 * Gas.words data.length)) context create (disassemble rest))
      ∧ (price ≤ m.gas → ∀ host,
        m.run host context create (disassemble (mstore offset data))
          = (.stopped, [], { m with memory := memory, gas := m.gas - price },
            host.countSteps (3 * Gas.words data.length + 1)))
      ∧ (m.gas < price → ∀ host rest, ∃ reason m' host',
        m.run host context create (disassemble (mstore offset data ++ rest))
          = (.halted reason, [], m', host') ∧ host'.journal = host.journal)
      ∧ (data = [] → mstore offset data = [] ∧ price = 0) := by
  have hpieces : (pieces data).length = Gas.words data.length := by
    have hlength := length_pieces data
    rw [length_padRight] at hlength
    unfold Gas.words
    omega
  have hspends := @Machine.spends_stores context create m hspec hroom offset (pieces data)
    (fun piece hpiece => length_of_mem_pieces hpiece) (by rwa [hpieces])
  rw [flatten_pieces, hpieces] at hspends
  have hsteps : (stores offset (pieces data)).length = 3 * Gas.words data.length := by
    rw [← hpieces]
    exact length_stores offset (pieces data)
  have hgoes := hspends.run_eq
  rw [hsteps] at hgoes
  refine ⟨_, _, m.memory.filled_store offset.toNat data, rfl, ?_, ?_, ?_, ?_⟩
  · intro hpays host rest
    rw [disassemble_mstore]
    exact hgoes hpays host (disassemble rest)
  · intro hpays host
    have halone := disassemble_mstore offset data []
    rw [List.append_nil] at halone
    rw [halone, hgoes hpays host (disassemble []), disassemble]
    rfl
  · intro hshort host rest
    rw [disassemble_mstore]
    exact hspends.halts hshort host (disassemble rest)
  · rintro rfl
    have hempty := (m.memory.filled_store offset.toNat []).empty rfl
    refine ⟨rfl, ?_⟩
    rw [hempty, Memory.growth_self, storesPrice]
    exact Nat.zero_sub _

/-- One byte at an offset of one makes two words of memory, at a price of 15. -/
theorem mstore_fills_memory_with_a_byte :
    ({} : Config).spec.includes .shanghai = true
      ∧ ({ stack := [7], gas := 20 } : Machine).stack.length + 2 ≤ 1024
      ∧ (1 : UInt64).toNat + 32 * Gas.words [0xab].length ≤ 2 ^ 64
      ∧ ∃ memory, Memory.Filled .empty memory 1 [0xab] ∧ memory.size = 64
        ∧ ∀ host, Machine.run { stack := [7], gas := 20 } host ⟨{}, .zero⟩ (Frame.create {} 0)
            (disassemble (mstore 1 [0xab]))
          = (.stopped, [], { stack := [7], memory := memory, gas := 5 }, host.countSteps 4) := by
  have hspec : ({} : Config).spec.includes .shanghai = true := by decide
  have hroom : ({ stack := [7], gas := 20 } : Machine).stack.length + 2 ≤ 1024 := by decide
  have hfits : (1 : UInt64).toNat + 32 * Gas.words ([0xab] : Bytes).length ≤ 2 ^ 64 := by decide
  obtain ⟨memory, price, hfilled, hprice, -, hends, -⟩ :=
    @mstore_fills_memory ⟨{}, .zero⟩ (Frame.create {} 0) { stack := [7], gas := 20 } 1 [0xab]
      hspec hroom hfits
  have hsize : memory.size = 64 := hfilled.size_eq (by decide)
  have hpaid : price = 15 := by
    rw [hprice, Memory.growth, hsize]
    decide
  subst hpaid
  exact ⟨hspec, hroom, hfits, memory, hfilled, hsize, fun host => hends (by decide) host⟩

end Assembly

end CreationGate
