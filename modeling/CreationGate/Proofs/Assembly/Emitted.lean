import CreationGate.Assembly.Builder
import CreationGate.Proofs.Assembly.Spelling

/-!
# What assembled code decodes to

Each call of the builder emits code that decodes to the instructions it stands for, whatever
code follows: an immediate is never read as an opcode, and the next call starts where the last
one ended.  A stored byte string decodes to a push of each padded piece, a push of its offset
and a store (`stores`), and a program that returns, deploys or creates ends in a few
instructions of its own.
-/

namespace CreationGate

namespace Assembly

/-! ## Opcodes and pushes -/

theorem disassemble_opcode {opcode : UInt8} (h : Instruction.immediateLength opcode = 0)
    (rest : Bytes) : disassemble (opcode :: rest) = .ofOpcode opcode [] :: disassemble rest := by
  rw [disassemble]
  simp only [h, List.take_zero, List.drop_zero, List.length_nil, Nat.sub_zero, List.nil_append]
  rfl

/-- The opcode of a push tells the length of its immediate. -/
theorem immediateLength_push {n : Nat} (h : n ≤ 32) :
    Instruction.immediateLength (UInt8.ofNat (0x5f + n)) = n
      ∧ 0x5f ≤ UInt8.ofNat (0x5f + n) ∧ UInt8.ofNat (0x5f + n) ≤ 0x7f := by
  have hopcodes : ∀ n : Fin 33, Instruction.immediateLength (UInt8.ofNat (0x5f + n.val)) = n.val
      ∧ 0x5f ≤ UInt8.ofNat (0x5f + n.val) ∧ UInt8.ofNat (0x5f + n.val) ≤ 0x7f := by decide
  exact hopcodes ⟨n, Nat.lt_succ_of_le h⟩

/-- A push decodes to itself: its immediate is taken off whole, whatever bytes are in it. -/
theorem disassemble_push {immediate : Bytes} (h : immediate.length ≤ 32) (rest : Bytes) :
    disassemble (push immediate ++ rest) = .push immediate :: disassemble rest := by
  obtain ⟨hlength, hlow, hhigh⟩ := immediateLength_push h
  rw [push, List.cons_append, disassemble]
  simp only [hlength, List.take_left, List.drop_left, Nat.sub_self]
  rw [Instruction.ofOpcode, if_pos ⟨hlow, hhigh⟩, Bytes.zeros, List.replicate_zero,
    List.append_nil]

theorem disassemble_pushNumber (n : UInt64) (rest : Bytes) :
    disassemble (pushNumber n ++ rest) = .push (Bytes.ofUInt64 n) :: disassemble rest := by
  have hshort := Bytes.length_ofUInt64_le n
  exact disassemble_push (by omega) rest

theorem disassemble_pushWord (w : Word) (rest : Bytes) :
    disassemble (pushWord w ++ rest) = .push w.bytes :: disassemble rest :=
  disassemble_push (Nat.le_of_eq w.length_bytes) rest

/-! ## Stores -/

/-- The pieces in which a byte string is stored: 32 bytes each, zeros behind the last byte. -/
def pieces (bytes : Bytes) : List Bytes := Bytes.chunks 32 (padRight 32 bytes)

theorem flatten_pieces (bytes : Bytes) : (pieces bytes).flatten = padRight 32 bytes :=
  Bytes.flatten_chunks (by decide) _

theorem length_padRight (bytes : Bytes) :
    (padRight 32 bytes).length = 32 * ((bytes.length + 31) / 32) := by
  rw [padRight, List.length_append, Bytes.length_zeros]
  omega

theorem length_of_mem_pieces {bytes piece : Bytes} (h : piece ∈ pieces bytes) :
    piece.length = 32 := by
  refine Bytes.length_of_mem_chunks ?_ h
  rw [length_padRight]
  exact Nat.dvd_mul_right 32 _

theorem length_pieces (bytes : Bytes) :
    32 * (pieces bytes).length = (padRight 32 bytes).length := by
  have hlengths : (pieces bytes).map List.length = (pieces bytes).map fun _ => 32 :=
    List.map_congr_left fun _ hpiece => length_of_mem_pieces hpiece
  rw [← flatten_pieces, List.length_flatten, hlengths, List.map_const', List.sum_replicate_nat,
    Nat.mul_comm]

/-- The instructions that store consecutive pieces from an offset on. -/
def stores (offset : UInt64) : List Bytes → List Instruction
  | [] => []
  | piece :: rest =>
    .push piece :: .push (Bytes.ofUInt64 offset) :: .mstore :: stores (offset + 32) rest

theorem disassemble_storePiece (offset : UInt64) {piece : Bytes} (h : piece.length ≤ 32)
    (rest : Bytes) :
    disassemble (storePiece offset piece ++ rest)
      = .push piece :: .push (Bytes.ofUInt64 offset) :: .mstore :: disassemble rest := by
  rw [storePiece, List.append_assoc, List.append_assoc, disassemble_push h,
    disassemble_pushNumber, List.singleton_append, disassemble_opcode (by decide)]
  rfl

theorem disassemble_storePieces (offset : UInt64) {list : List Bytes}
    (h : ∀ piece ∈ list, piece.length ≤ 32) (rest : Bytes) :
    disassemble (storePieces offset list ++ rest) = stores offset list ++ disassemble rest := by
  induction list generalizing offset with
  | nil => rfl
  | cons piece list ih =>
    have hpiece : piece.length ≤ 32 := h piece List.mem_cons_self
    have hlist : ∀ later ∈ list, later.length ≤ 32 := fun later hlater =>
      h later (List.mem_cons_of_mem piece hlater)
    rw [storePieces, List.append_assoc, disassemble_storePiece offset hpiece, ih _ hlist, stores]
    rfl

theorem disassemble_mstore (offset : UInt64) (bytes rest : Bytes) :
    disassemble (mstore offset bytes ++ rest)
      = stores offset (pieces bytes) ++ disassemble rest :=
  disassemble_storePieces offset (fun _ hpiece => Nat.le_of_eq (length_of_mem_pieces hpiece)) rest

/-! ## Programs -/

theorem disassemble_storeTop (slot : UInt64) (rest : Bytes) :
    disassemble (storeTop slot ++ rest)
      = .push (Bytes.ofUInt64 slot) :: .sstore :: disassemble rest := by
  rw [storeTop, List.append_assoc, disassemble_pushNumber, List.singleton_append,
    disassemble_opcode (by decide)]
  rfl

/-- Code that deploys a runtime stores it from the bottom of memory on and returns it. -/
theorem disassemble_deploy (runtime : Bytes) :
    disassemble (deploy runtime)
      = stores 0 (pieces runtime)
        ++ [.push (Bytes.ofUInt64 (UInt64.ofNat runtime.length)), .push [], .ret] := by
  rw [deploy, returnWithData, List.append_assoc, List.append_assoc, disassemble_mstore,
    disassemble_pushNumber, disassemble_pushNumber, disassemble_opcode (by decide), disassemble]
  rfl

/-- The instructions that take the bottom of memory as initialization code. -/
def creation (salt : Option Word) (length : Nat) : List Instruction :=
  match salt with
  | none => [.push (Bytes.ofUInt64 (UInt64.ofNat length)), .push [], .push [], .create]
  | some salt =>
    [.push salt.bytes, .push (Bytes.ofUInt64 (UInt64.ofNat length)), .push [], .push [], .create2]

theorem disassemble_create (initCode rest : Bytes) :
    disassemble (create initCode ++ rest)
      = stores 0 (pieces initCode) ++ creation none initCode.length ++ disassemble rest := by
  rw [create]
  simp only [List.append_assoc]
  rw [disassemble_mstore, disassemble_pushNumber, disassemble_pushNumber, disassemble_pushNumber,
    List.singleton_append, disassemble_opcode (by decide)]
  rfl

theorem disassemble_create2 (initCode : Bytes) (salt : Word) (rest : Bytes) :
    disassemble (create2 initCode salt ++ rest)
      = stores 0 (pieces initCode) ++ creation (some salt) initCode.length
        ++ disassemble rest := by
  rw [create2]
  simp only [List.append_assoc]
  rw [disassemble_mstore, disassemble_pushWord, disassemble_pushNumber, disassemble_pushNumber,
    disassemble_pushNumber, List.singleton_append, disassemble_opcode (by decide)]
  rfl

end Assembly

end CreationGate
