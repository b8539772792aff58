import CreationGate.Proofs.Assembly.Emitted
import Mathlib.Data.List.Basic
import Mathlib.Data.Nat.Digits.Defs

/-!
# Assembled code decodes to what was asked for

Each call of the builder asks for a list of instructions (`Assembly.Call.instructions`), and it
emits their code, one instruction after another (`Assembly.Call.emit_eq`).  Decoding undoes
coding whatever follows (`disassemble_encode`), so by induction it does for every list of
instructions and every program.  A byte inside an immediate is neither decoded nor a place to
jump to, since the walk over the code steps over it.
-/

namespace CreationGate

/-! ## Shortest spellings -/

namespace Bytes

/-- The shortest big-endian spelling of a number; zero is spelled by nothing. -/
def shortest (n : Nat) : Bytes := ((Nat.digits 256 n).map UInt8.ofNat).reverse

theorem shortest_zero : shortest 0 = [] := rfl

theorem shortest_ne_nil {n : Nat} (h : n ≠ 0) : shortest n ≠ [] := by
  intro hnil
  rw [shortest, List.reverse_eq_nil_iff, List.map_eq_nil_iff, Nat.digits_eq_nil_iff_eq_zero] at hnil
  exact h hnil

theorem shortest_append {n : Nat} {b : UInt8} (h : b.toNat ≠ 0 ∨ n ≠ 0) :
    shortest (n * 256 + b.toNat) = shortest n ++ [b] := by
  have hdigits := Nat.digits_add 256 (by decide) b.toNat n b.toNat_lt h
  rw [shortest, Nat.add_comm, Nat.mul_comm, hdigits, List.map_cons, List.reverse_cons,
    UInt8.ofNat_toNat]
  rfl

/-- Without the zeros in front a byte string is the shortest spelling of its number. -/
theorem dropWhile_zero_eq (bytes : Bytes) : bytes.dropWhile (· == 0) = shortest bytes.toNat := by
  induction bytes using List.reverseRecOn with
  | nil => rfl
  | append_singleton bytes b ih =>
    rw [List.dropWhile_append, ih, toNat_append_singleton]
    by_cases hbytes : toNat bytes = 0
    · by_cases hb : b = 0
      · subst hb
        rw [hbytes]
        rfl
      · have hnumber : b.toNat ≠ 0 := fun hzero => hb (UInt8.toNat_inj.mp hzero)
        rw [hbytes, shortest_zero, shortest_append (.inl hnumber)]
        simp [hb, shortest_zero]
    · rw [shortest_append (.inr hbytes), if_neg (by simpa using shortest_ne_nil hbytes)]

theorem ofUInt64_eq (n : UInt64) : ofUInt64 n = shortest n.toNat := by
  have hnumber := toNat_ofUInt64 n
  rw [ofUInt64, toNat_dropWhile_zero] at hnumber
  rw [ofUInt64, dropWhile_zero_eq, hnumber]

theorem length_shortest_le {n : Nat} (h : n < 2 ^ 64) : (shortest n).length ≤ 32 := by
  have hshort := length_ofUInt64_le (UInt64.ofNat n)
  rw [ofUInt64_eq, UInt64.toNat_ofNat_of_lt' h] at hshort
  omega

/-- The pieces of a string of full length, by their places. -/
theorem chunks_eq {size count : Nat} (hsize : 0 < size) {bytes : Bytes}
    (h : bytes.length = size * count) :
    chunks size bytes = (List.range count).map fun i => (bytes.drop (size * i)).take size := by
  have hgo : ∀ (count fuel : Nat) (bytes : Bytes), bytes.length = size * count →
      bytes.length ≤ fuel → chunks.go size bytes fuel
        = (List.range count).map fun i => (bytes.drop (size * i)).take size := by
    intro count
    induction count with
    | zero =>
      intro fuel bytes hlength _
      have hnil : bytes = [] := List.eq_nil_of_length_eq_zero hlength
      subst hnil
      cases fuel <;> rfl
    | succ count ih =>
      intro fuel bytes hlength hfuel
      rw [Nat.mul_succ] at hlength
      cases fuel with
      | zero => omega
      | succ fuel =>
        cases bytes with
        | nil => simp only [List.length_nil] at hlength; omega
        | cons b rest =>
          have hrest : ((b :: rest).drop size).length = size * count := by
            rw [List.length_drop]
            omega
          rw [chunks.go, ih fuel _ hrest (by omega), List.range_succ_eq_map, List.map_cons,
            List.map_map, Nat.mul_zero, List.drop_zero]
          simp only [List.drop_drop, Function.comp_def, Nat.mul_succ, Nat.add_comm]
  exact hgo count bytes.length bytes h (Nat.le_refl _)

end Bytes

/-! ## Coding and decoding -/

namespace Instruction

/-- The code of an instruction: its opcode and its immediate. -/
def encode : Instruction → Bytes
  | stop => [0x00]
  | add => [0x01]
  | pop => [0x50]
  | mstore => [0x52]
  | mstore8 => [0x53]
  | sstore => [0x55]
  | push immediate => UInt8.ofNat (0x5f + immediate.length) :: immediate
  | create => [0xf0]
  | create2 => [0xf5]
  | ret => [0xf3]
  | revert => [0xfd]
  | invalid => [0xfe]
  | unknown opcode => [opcode]

/-- Whether an instruction has code of its own: an immediate fits a push, and an unknown opcode
is one that no other instruction has. -/
def Encodable : Instruction → Prop
  | push immediate => immediate.length ≤ 32
  | unknown opcode => ofOpcode opcode [] = unknown opcode
  | _ => True

instance : DecidablePred Encodable
  | push immediate => inferInstanceAs (Decidable (immediate.length ≤ 32))
  | unknown opcode => inferInstanceAs (Decidable (ofOpcode opcode [] = unknown opcode))
  | stop | add | pop | mstore | mstore8 | sstore | create | create2 | ret | revert | invalid =>
    inferInstanceAs (Decidable True)

theorem immediateLength_of_unknown {opcode : UInt8} (h : ofOpcode opcode [] = unknown opcode) :
    immediateLength opcode = 0 := by
  unfold immediateLength
  split
  next hpush =>
    have hlow : 0x5f ≤ opcode := UInt8.le_trans (by decide) hpush.1
    rw [ofOpcode, if_pos ⟨hlow, hpush.2⟩] at h
    cases h
  next => rfl

/-- A byte that starts no immediate is the code of the instruction that it decodes to. -/
theorem encode_ofOpcode {opcode : UInt8} (h : ¬(0x60 ≤ opcode ∧ opcode ≤ 0x7f)) :
    (ofOpcode opcode []).encode = [opcode] ∧ (ofOpcode opcode []).Encodable := by
  have hopcodes : ∀ n : Fin 256,
      ¬(0x60 ≤ UInt8.ofNat n.val ∧ UInt8.ofNat n.val ≤ 0x7f) →
        (ofOpcode (UInt8.ofNat n.val) []).encode = [UInt8.ofNat n.val]
          ∧ (ofOpcode (UInt8.ofNat n.val) []).Encodable := by
    decide +kernel
  have hopcode := hopcodes ⟨opcode.toNat, opcode.toNat_lt⟩
  rw [UInt8.ofNat_toNat] at hopcode
  exact hopcode h

end Instruction

/-- Decoding undoes coding, whatever code follows. -/
theorem disassemble_encode {instruction : Instruction} (h : instruction.Encodable)
    (rest : Bytes) :
    disassemble (instruction.encode ++ rest) = instruction :: disassemble rest := by
  cases instruction with
  | push immediate => exact Assembly.disassemble_push h rest
  | unknown opcode =>
    have hcode := Assembly.disassemble_opcode (Instruction.immediateLength_of_unknown h) rest
    rw [h] at hcode
    exact hcode
  | _ => exact Assembly.disassemble_opcode (by decide) rest

/-- By induction on the instructions. -/
theorem disassemble_flatMap_encode {list : List Instruction}
    (h : ∀ instruction ∈ list, instruction.Encodable) (rest : Bytes) :
    disassemble (list.flatMap Instruction.encode ++ rest) = list ++ disassemble rest := by
  induction list with
  | nil => rfl
  | cons instruction list ih =>
    have hlist : ∀ later ∈ list, later.Encodable := fun later hlater =>
      h later (List.mem_cons_of_mem instruction hlater)
    rw [List.flatMap_cons, List.append_assoc, disassemble_encode (h _ List.mem_cons_self),
      ih hlist, List.cons_append]

namespace Assembly

/-! ## What a call asks for -/

/-- The instructions that store a byte string from an offset on: for each 32 bytes, the last of
them padded with zeros, a push of the bytes, a push of their offset and a store. -/
def filling (offset : Nat) (bytes : Bytes) : List Instruction :=
  (List.range ((bytes.length + 31) / 32)).flatMap fun i =>
    [.push (((padRight 32 bytes).drop (32 * i)).take 32), .push (.shortest (offset + 32 * i)),
      .mstore]

namespace Call

/-- The instructions that a call asks for. -/
def instructions : Call → List Instruction
  | append opcode => [.ofOpcode opcode []]
  | pushBytes bytes => [.push bytes]
  | pushNumber n => [.push (.shortest n.toNat)]
  | pushWord w => [.push w.bytes]
  | mstore offset bytes => filling offset.toNat bytes
  | sstore slot value => [.push value.bytes, .push (.shortest slot.toNat), .sstore]
  | storeTop slot => [.push (.shortest slot.toNat), .sstore]
  | stop => [.stop]
  | returnWithData data => filling 0 data ++ [.push (.shortest data.length), .push [], .ret]
  | create initCode =>
    filling 0 initCode ++ [.push (.shortest initCode.length), .push [], .push [], .create]
  | create2 initCode salt =>
    filling 0 initCode
      ++ [.push salt.bytes, .push (.shortest initCode.length), .push [], .push [], .create2]

/-- Whether a call asks for something that can be had: a byte that starts no immediate, an
immediate that fits a push, and offsets and lengths of 64 bits. -/
def Fits : Call → Prop
  | append opcode => ¬(0x60 ≤ opcode ∧ opcode ≤ 0x7f)
  | pushBytes bytes => bytes.length ≤ 32
  | mstore offset bytes => offset.toNat + (padRight 32 bytes).length ≤ 2 ^ 64
  | returnWithData data => data.length < 2 ^ 64
  | create initCode => initCode.length < 2 ^ 64
  | create2 initCode _ => initCode.length < 2 ^ 64
  | _ => True

instance : DecidablePred Fits
  | append opcode => inferInstanceAs (Decidable ¬(0x60 ≤ opcode ∧ opcode ≤ 0x7f))
  | pushBytes bytes => inferInstanceAs (Decidable (bytes.length ≤ 32))
  | mstore offset bytes =>
    inferInstanceAs (Decidable (offset.toNat + (padRight 32 bytes).length ≤ 2 ^ 64))
  | returnWithData data => inferInstanceAs (Decidable (data.length < 2 ^ 64))
  | create initCode => inferInstanceAs (Decidable (initCode.length < 2 ^ 64))
  | create2 initCode _ => inferInstanceAs (Decidable (initCode.length < 2 ^ 64))
  | pushNumber _ | pushWord _ | sstore _ _ | storeTop _ | stop =>
    inferInstanceAs (Decidable True)

end Call

/-! ## Emission -/

theorem pushNumber_eq (n : UInt64) :
    pushNumber n = (Instruction.push (.shortest n.toNat)).encode := by
  rw [pushNumber, Bytes.ofUInt64_eq]
  rfl

theorem pushNumber_ofNat {n : Nat} (h : n < 2 ^ 64) :
    pushNumber (UInt64.ofNat n) = (Instruction.push (.shortest n)).encode := by
  rw [pushNumber_eq, UInt64.toNat_ofNat_of_lt' h]

theorem storePieces_eq (offset : UInt64) (list : List Bytes) :
    storePieces offset list = (stores offset list).flatMap Instruction.encode := by
  induction list generalizing offset with
  | nil => rfl
  | cons piece list ih =>
    rw [storePieces, ih, stores]
    simp [storePiece, pushNumber, push, Instruction.encode]

/-- The offsets of stored pieces, where none of them passes the last one that there is. -/
theorem stores_map_range {offset : UInt64} {count : Nat} (piece : Nat → Bytes)
    (h : offset.toNat + 32 * count ≤ 2 ^ 64) :
    stores offset ((List.range count).map piece)
      = (List.range count).flatMap fun i =>
          [.push (piece i), .push (.shortest (offset.toNat + 32 * i)), .mstore] := by
  induction count generalizing offset piece with
  | zero => rfl
  | succ count ih =>
    have hnext : (offset + 32).toNat + 32 * count ≤ 2 ^ 64 := by
      rw [UInt64.toNat_add]
      have hstep : (32 : UInt64).toNat = 32 := rfl
      omega
    have hrest : ∀ i ∈ List.range count, (offset + 32).toNat + 32 * i
        = offset.toNat + 32 * (i + 1) := by
      intro i hi
      rw [List.mem_range] at hi
      rw [UInt64.toNat_add]
      have hstep : (32 : UInt64).toNat = 32 := rfl
      omega
    rw [List.range_succ_eq_map, List.map_cons, List.map_map, stores, ih _ hnext,
      List.flatMap_cons, List.flatMap_map, Bytes.ofUInt64_eq, Nat.mul_zero, Nat.add_zero]
    have hlater := List.flatMap_congr fun i hi => congrArg (fun n =>
      [Instruction.push (piece (i + 1)), .push (.shortest n), .mstore]) (hrest i hi)
    exact congrArg (_ :: _ :: _ :: ·) hlater

theorem stores_pieces {offset : UInt64} {bytes : Bytes}
    (h : offset.toNat + (padRight 32 bytes).length ≤ 2 ^ 64) :
    stores offset (pieces bytes) = filling offset.toNat bytes := by
  have hlength := length_padRight bytes
  rw [hlength] at h
  rw [pieces, Bytes.chunks_eq (by decide) hlength, stores_map_range _ h]
  rfl

theorem mstore_eq {offset : UInt64} {bytes : Bytes}
    (h : offset.toNat + (padRight 32 bytes).length ≤ 2 ^ 64) :
    mstore offset bytes = (filling offset.toNat bytes).flatMap Instruction.encode := by
  rw [← stores_pieces h]
  exact storePieces_eq offset (pieces bytes)

/-- Data of 64-bit length is stored from the bottom of memory on. -/
theorem mstore_zero_eq {data : Bytes} (h : data.length < 2 ^ 64) :
    mstore 0 data = (filling 0 data).flatMap Instruction.encode := by
  refine mstore_eq ?_
  rw [length_padRight]
  have hzero : (0 : UInt64).toNat = 0 := rfl
  omega

namespace Call

variable {call : Call}

/-- A call that fits emits the code of the instructions that it asks for. -/
theorem emit_eq (h : call.Fits) :
    call.emit = .ok (call.instructions.flatMap Instruction.encode) := by
  have hempty : Assembly.pushNumber 0 = (Instruction.push []).encode := rfl
  cases call with
  | append opcode =>
    rw [instructions, List.flatMap_singleton, (Instruction.encode_ofOpcode h).1, emit]
  | pushBytes bytes =>
    have hlength : bytes.length ≤ 32 := h
    rw [emit, if_pos hlength]
    simp [instructions, push, Instruction.encode]
  | pushNumber n => simp [emit, instructions, pushNumber_eq]
  | pushWord w => simp [emit, instructions, Assembly.pushWord, push, Instruction.encode]
  | mstore offset bytes => rw [emit, instructions, mstore_eq h]
  | sstore slot value =>
    simp [emit, instructions, Assembly.pushWord, Assembly.storeTop, pushNumber_eq, push,
      Instruction.encode]
  | storeTop slot =>
    simp [emit, instructions, Assembly.storeTop, pushNumber_eq, Instruction.encode]
  | stop => rfl
  | returnWithData data =>
    rw [emit, Assembly.returnWithData, mstore_zero_eq h, pushNumber_ofNat h, hempty]
    simp [instructions, Instruction.encode]
  | create initCode =>
    rw [emit, Assembly.create, mstore_zero_eq h, pushNumber_ofNat h, hempty]
    simp [instructions, Instruction.encode]
  | create2 initCode salt =>
    rw [emit, Assembly.create2, mstore_zero_eq h, pushNumber_ofNat h, hempty]
    simp [instructions, Assembly.pushWord, push, Instruction.encode]

end Call

/-- Stored pieces are pushed whole, and so are their offsets. -/
theorem encodable_filling {offset : Nat} {bytes : Bytes}
    (h : offset + (padRight 32 bytes).length ≤ 2 ^ 64) :
    ∀ instruction ∈ filling offset bytes, instruction.Encodable := by
  intro instruction hinstruction
  rw [length_padRight] at h
  obtain ⟨i, hi, hstored⟩ := List.mem_flatMap.mp hinstruction
  rw [List.mem_range] at hi
  simp only [List.mem_cons, List.not_mem_nil, or_false] at hstored
  rcases hstored with rfl | rfl | rfl
  · exact List.length_take_le 32 _
  · exact Bytes.length_shortest_le (by omega)
  · trivial

theorem encodable_filling_zero {data : Bytes} (h : data.length < 2 ^ 64) :
    ∀ instruction ∈ filling 0 data, instruction.Encodable := by
  refine encodable_filling ?_
  rw [length_padRight]
  omega

theorem Call.encodable {call : Call} (h : call.Fits) :
    ∀ instruction ∈ call.instructions, instruction.Encodable := by
  have hnumber : ∀ n : UInt64, (Instruction.push (.shortest n.toNat)).Encodable := fun n =>
    Bytes.length_shortest_le n.toNat_lt
  have hword : ∀ w : Word, (Instruction.push w.bytes).Encodable := fun w =>
    Nat.le_of_eq w.length_bytes
  have hempty : (Instruction.push []).Encodable := Nat.zero_le 32
  cases call with
  | append opcode =>
    simp only [instructions, List.forall_mem_singleton]
    exact (Instruction.encode_ofOpcode h).2
  | pushBytes bytes =>
    simp only [instructions, List.forall_mem_singleton]
    exact h
  | pushNumber n =>
    simp only [instructions, List.forall_mem_singleton]
    exact hnumber n
  | pushWord w =>
    simp only [instructions, List.forall_mem_singleton]
    exact hword w
  | mstore offset bytes => exact encodable_filling h
  | sstore slot value =>
    simp only [instructions, List.forall_mem_cons]
    exact ⟨hword value, hnumber slot, trivial, List.forall_mem_nil _⟩
  | storeTop slot =>
    simp only [instructions, List.forall_mem_cons]
    exact ⟨hnumber slot, trivial, List.forall_mem_nil _⟩
  | stop =>
    simp only [instructions, List.forall_mem_singleton]
    trivial
  | returnWithData data =>
    simp only [instructions, List.forall_mem_append, List.forall_mem_cons]
    exact ⟨encodable_filling_zero h, Bytes.length_shortest_le h, hempty, trivial,
      List.forall_mem_nil _⟩
  | create initCode =>
    simp only [instructions, List.forall_mem_append, List.forall_mem_cons]
    exact ⟨encodable_filling_zero h, Bytes.length_shortest_le h, hempty, hempty, trivial,
      List.forall_mem_nil _⟩
  | create2 initCode salt =>
    simp only [instructions, List.forall_mem_append, List.forall_mem_cons]
    exact ⟨encodable_filling_zero h, hword salt, Bytes.length_shortest_le h, hempty, hempty,
      trivial, List.forall_mem_nil _⟩

/-! ## Programs -/

/-- The code of a program whose calls fit, by induction on the calls. -/
theorem assemble_eq {calls : List Call} (h : ∀ call ∈ calls, call.Fits) :
    assemble calls = .ok ((calls.flatMap Call.instructions).flatMap Instruction.encode) := by
  induction calls with
  | nil => rfl
  | cons call calls ih =>
    have hcalls : ∀ later ∈ calls, later.Fits := fun later hlater =>
      h later (List.mem_cons_of_mem call hlater)
    rw [assemble, Call.emit_eq (h call List.mem_cons_self), ih hcalls]
    simp

theorem encodable_flatMap {calls : List Call} (h : ∀ call ∈ calls, call.Fits) :
    ∀ instruction ∈ calls.flatMap Call.instructions, instruction.Encodable := by
  intro instruction hinstruction
  obtain ⟨call, hcall, hasked⟩ := List.mem_flatMap.mp hinstruction
  exact Call.encodable (h call hcall) instruction hasked

/-! ## Places to jump to -/

/-- The places in code, counted from a given one, that may be jumped to: those of the opcode
`0x5b`, where the walk over the code steps over immediates. -/
def jumpDestinations (place : Nat) : Bytes → List Nat
  | [] => []
  | opcode :: rest =>
    let length := Instruction.immediateLength opcode
    let later := jumpDestinations (place + 1 + length) (rest.drop length)
    if opcode = 0x5b then place :: later else later
termination_by code => code.length
decreasing_by simp only [List.length_drop, List.length_cons]; omega

theorem jumpDestinations_opcode {opcode : UInt8} (h : Instruction.immediateLength opcode = 0)
    (place : Nat) (rest : Bytes) :
    jumpDestinations place (opcode :: rest)
      = (if opcode = 0x5b then [place] else []) ++ jumpDestinations (place + 1) rest := by
  rw [jumpDestinations]
  simp only [h, List.drop_zero, Nat.add_zero]
  split <;> rfl

theorem jumpDestinations_push {immediate : Bytes} (h : immediate.length ≤ 32) (place : Nat)
    (rest : Bytes) :
    jumpDestinations place (push immediate ++ rest)
      = jumpDestinations (place + (push immediate).length) rest := by
  obtain ⟨hlength, hlow, _⟩ := immediateLength_push h
  have hopcode : UInt8.ofNat (0x5f + immediate.length) ≠ 0x5b := by
    intro heq
    rw [heq] at hlow
    exact absurd hlow (by decide)
  rw [push, List.cons_append, jumpDestinations]
  simp only [hlength, List.drop_left, if_neg hopcode, List.length_cons]
  rw [Nat.add_assoc, Nat.add_comm 1]

/-- Of all instructions only the unknown opcode `0x5b` may be jumped to. -/
theorem jumpDestinations_encode {instruction : Instruction} (h : instruction.Encodable)
    (place : Nat) (rest : Bytes) :
    jumpDestinations place (instruction.encode ++ rest)
      = (if instruction = .unknown 0x5b then [place] else [])
        ++ jumpDestinations (place + instruction.encode.length) rest := by
  cases instruction with
  | push immediate => exact jumpDestinations_push h place rest
  | unknown opcode =>
    have hcode := jumpDestinations_opcode (Instruction.immediateLength_of_unknown h) place rest
    simp only [Instruction.unknown.injEq]
    exact hcode
  | _ => exact jumpDestinations_opcode (by decide) place rest

theorem jumpDestinations_flatMap {list : List Instruction}
    (h : ∀ instruction ∈ list, instruction.Encodable) (hnone : .unknown 0x5b ∉ list)
    (place : Nat) (rest : Bytes) :
    jumpDestinations place (list.flatMap Instruction.encode ++ rest)
      = jumpDestinations (place + (list.flatMap Instruction.encode).length) rest := by
  induction list generalizing place with
  | nil => rfl
  | cons instruction list ih =>
    have hlist : ∀ later ∈ list, later.Encodable := fun later hlater =>
      h later (List.mem_cons_of_mem instruction hlater)
    have hfirst : instruction ≠ .unknown 0x5b := fun heq =>
      hnone (heq ▸ List.mem_cons_self)
    rw [List.flatMap_cons, List.append_assoc, jumpDestinations_encode (h _ List.mem_cons_self),
      if_neg hfirst, List.nil_append, ih hlist fun hmem => hnone (List.mem_cons_of_mem _ hmem),
      List.length_append, Nat.add_assoc]

/-- No call but the one that appends it asks for the opcode that may be jumped to. -/
theorem Call.eq_append_of_mem {call : Call} (hfits : call.Fits)
    (h : .unknown 0x5b ∈ call.instructions) : call = .append 0x5b := by
  have hfilling : ∀ offset bytes, Instruction.unknown 0x5b ∉ filling offset bytes := by
    intro offset bytes hmem
    obtain ⟨i, _, hstored⟩ := List.mem_flatMap.mp hmem
    simp at hstored
  cases call with
  | append opcode =>
    have hcode := (Instruction.encode_ofOpcode hfits).1
    rw [instructions, List.mem_singleton] at h
    rw [← h] at hcode
    rw [← List.singleton_inj.mp hcode]
  | mstore offset bytes => exact absurd h (hfilling _ _)
  | _ => simp [instructions, hfilling] at h

/-- The code of a call holds a place to jump to only if the call appends one. -/
theorem jumpDestinations_call {call : Call} (h : call.Fits) (place : Nat) (rest : Bytes) :
    jumpDestinations place (call.instructions.flatMap Instruction.encode ++ rest)
      = (if call = .append 0x5b then [place] else [])
        ++ jumpDestinations (place + (call.instructions.flatMap Instruction.encode).length)
          rest := by
  by_cases hcall : call = .append 0x5b
  · subst hcall
    rw [if_pos rfl]
    exact jumpDestinations_opcode (by decide) place rest
  · rw [if_neg hcall, List.nil_append]
    have hnone : .unknown 0x5b ∉ call.instructions := mt (Call.eq_append_of_mem h) hcall
    exact jumpDestinations_flatMap (Call.encodable h) hnone place rest

/-- By induction on the calls. -/
theorem mem_jumpDestinations {calls : List Call} (h : ∀ call ∈ calls, call.Fits)
    (start place : Nat) :
    place ∈ jumpDestinations start
        ((calls.flatMap Call.instructions).flatMap Instruction.encode)
      ↔ ∃ before after, calls = before ++ .append 0x5b :: after
        ∧ start + ((before.flatMap Call.instructions).flatMap Instruction.encode).length
          = place := by
  induction calls generalizing start with
  | nil =>
    refine iff_of_false (by simp [jumpDestinations]) ?_
    rintro ⟨before, after, hcalls, _⟩
    simp at hcalls
  | cons call calls ih =>
    have hcalls : ∀ later ∈ calls, later.Fits := fun later hlater =>
      h later (List.mem_cons_of_mem call hlater)
    rw [List.flatMap_cons, List.flatMap_append,
      jumpDestinations_call (h call List.mem_cons_self), List.mem_append, ih hcalls]
    constructor
    · rintro (hfirst | ⟨before, after, rfl, hplace⟩)
      · split at hfirst
        next hcall =>
          rw [List.mem_singleton] at hfirst
          exact ⟨[], calls, by rw [hcall]; rfl, hfirst.symm⟩
        next => cases hfirst
      · refine ⟨call :: before, after, rfl, ?_⟩
        rw [List.flatMap_cons, List.flatMap_append, List.length_append, ← Nat.add_assoc]
        exact hplace
    · rintro ⟨before, after, hsplit, hplace⟩
      cases before with
      | nil =>
        obtain ⟨rfl, rfl⟩ := List.cons.inj hsplit
        rw [if_pos rfl, List.mem_singleton]
        exact .inl hplace.symm
      | cons first before =>
        obtain ⟨rfl, rfl⟩ := List.cons.inj hsplit
        rw [List.flatMap_cons, List.flatMap_append, List.length_append, ← Nat.add_assoc] at hplace
        exact .inr ⟨before, after, rfl, hplace⟩

/-- **Assembled code decodes to exactly what was asked for.**  A program whose calls fit is
assembled without an error.  Linear decoding of its code gives the instructions that its calls
ask for, in order and to the last byte, and goes on as if from the start with whatever code
follows.  So no byte of an immediate is decoded as an opcode, and code may be jumped to only
where a call appended the opcode for it. -/
theorem assembled_code_decodes_to_its_calls {calls : List Call}
    (h : ∀ call ∈ calls, call.Fits) :
    ∃ code, assemble calls = .ok code
      ∧ disassemble code = calls.flatMap Call.instructions
      ∧ (disassemble code).flatMap Instruction.encode = code
      ∧ (∀ rest, disassemble (code ++ rest) = disassemble code ++ disassemble rest)
      ∧ ∀ place, place ∈ jumpDestinations 0 code
        ↔ ∃ before after first, calls = before ++ .append 0x5b :: after
          ∧ assemble before = .ok first ∧ first.length = place := by
  have hdecoded : ∀ rest, disassemble
      ((calls.flatMap Call.instructions).flatMap Instruction.encode ++ rest)
        = calls.flatMap Call.instructions ++ disassemble rest :=
    disassemble_flatMap_encode (encodable_flatMap h)
  have hwhole := hdecoded []
  rw [List.append_nil, disassemble, List.append_nil] at hwhole
  refine ⟨_, assemble_eq h, hwhole, ?_, fun rest => ?_, fun place => ?_⟩
  · rw [hwhole]
  · rw [hdecoded, hwhole]
  · rw [mem_jumpDestinations h]
    constructor
    · rintro ⟨before, after, rfl, hplace⟩
      have hbefore : ∀ call ∈ before, call.Fits := fun call hcall =>
        h call (List.mem_append_left _ hcall)
      rw [Nat.zero_add] at hplace
      exact ⟨before, after, _, rfl, assemble_eq hbefore, hplace⟩
    · rintro ⟨before, after, first, rfl, hfirst, hplace⟩
      have hbefore : ∀ call ∈ before, call.Fits := fun call hcall =>
        h call (List.mem_append_left _ hcall)
      rw [assemble_eq hbefore] at hfirst
      cases hfirst
      exact ⟨before, after, rfl, by rw [Nat.zero_add, hplace]⟩

/-- A creation from code that itself holds the opcode of a place to jump to, behind such an
opcode in an immediate and one that is appended: only the last one may be jumped to. -/
theorem program_in_program_decodes :
    let calls : List Call := [.pushBytes [0x5b, 0x7f], .append 0x5b, .create [0x5b, 0x60, 0x5b]]
    ∃ code, assemble calls = .ok code
      ∧ disassemble code = [.push [0x5b, 0x7f], .unknown 0x5b,
        .push ([0x5b, 0x60, 0x5b] ++ Bytes.zeros 29), .push [], .mstore, .push [3], .push [],
        .push [], .create]
      ∧ ∀ place, place ∈ jumpDestinations 0 code ↔ place = 3 := by
  intro calls
  have hfits : ∀ call ∈ calls, call.Fits := by decide
  obtain ⟨code, hcode, hdecoded, _, _, hplaces⟩ := assembled_code_decodes_to_its_calls hfits
  have hasked : calls.flatMap Call.instructions = [.push [0x5b, 0x7f], .unknown 0x5b,
      .push ([0x5b, 0x60, 0x5b] ++ Bytes.zeros 29), .push [], .mstore, .push [3], .push [],
      .push [], .create] := by
    decide +kernel
  refine ⟨code, hcode, hdecoded.trans hasked, fun place => ?_⟩
  rw [hplaces]
  constructor
  · rintro ⟨before, after, first, hsplit, hfirst, rfl⟩
    -- The appended opcode is the second call, so one call stands before it.
    rcases before with _ | ⟨call, _ | ⟨second, _ | ⟨third, later⟩⟩⟩
    · simp [calls] at hsplit
    · obtain ⟨rfl, _⟩ : .pushBytes [0x5b, 0x7f] = call ∧ _ := List.cons.inj hsplit
      cases hfirst
      rfl
    · simp [calls] at hsplit
    · simp [calls] at hsplit
  · rintro rfl
    exact ⟨[.pushBytes [0x5b, 0x7f]], [.create [0x5b, 0x60, 0x5b]], _, rfl, rfl, rfl⟩

end Assembly

end CreationGate
