import CreationGate.Bytes.Basic

/-!
# Instructions

Linear decoding of code: an opcode byte is one instruction, and a push takes the bytes that
follow it as its immediate.  Bytes missing at the end of the code read as zero.
-/

namespace CreationGate

/-- One decoded instruction. -/
inductive Instruction where
  | stop
  | add
  | pop
  | mstore
  | mstore8
  | sstore
  /-- Pushes the number that the immediate spells; no immediate pushes zero. -/
  | push (immediate : Bytes)
  /-- Creates a contract at an address given by the creator's nonce. -/
  | create
  | create2
  | ret
  | revert
  | invalid
  | unknown (opcode : UInt8)
deriving DecidableEq

namespace Instruction

/-- How many bytes after an opcode belong to it: 1 to 32 for `0x60` to `0x7f`, else none. -/
def immediateLength (opcode : UInt8) : Nat :=
  if 0x60 ≤ opcode ∧ opcode ≤ 0x7f then opcode.toNat - 0x5f else 0

/-- The instruction of an opcode with its immediate. -/
def ofOpcode (opcode : UInt8) (immediate : Bytes) : Instruction :=
  if 0x5f ≤ opcode ∧ opcode ≤ 0x7f then push immediate
  else if opcode = 0x00 then stop
  else if opcode = 0x01 then add
  else if opcode = 0x50 then pop
  else if opcode = 0x52 then mstore
  else if opcode = 0x53 then mstore8
  else if opcode = 0x55 then sstore
  else if opcode = 0xf0 then create
  else if opcode = 0xf3 then ret
  else if opcode = 0xf5 then create2
  else if opcode = 0xfd then revert
  else if opcode = 0xfe then invalid
  else unknown opcode

end Instruction

/-- The instructions that code spells. -/
def disassemble : Bytes → List Instruction
  | [] => []
  | opcode :: rest =>
    let length := Instruction.immediateLength opcode
    let immediate := rest.take length
    .ofOpcode opcode (immediate ++ Bytes.zeros (length - immediate.length))
      :: disassemble (rest.drop length)
termination_by code => code.length
decreasing_by simp only [List.length_drop, List.length_cons]; omega

end CreationGate
