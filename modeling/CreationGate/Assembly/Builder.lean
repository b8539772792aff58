import CreationGate.Assembly.Instruction
import CreationGate.Word

/-!
# Assembling code

A program is a list of builder calls; assembling it concatenates what the calls emit.  Memory
is filled in 32-byte pieces, the last one padded with zeros.
-/

namespace CreationGate

/-- Why code cannot be assembled. -/
inductive AssemblyError where
  | immediateTooLong
  | zeroMultiple
deriving DecidableEq

/-- The text that goes with the failure. -/
def AssemblyError.message : AssemblyError → String
  | immediateTooLong => "assertion failed: bytes.len() <= 32"
  | zeroMultiple => "attempt to calculate the remainder with a divisor of zero"

namespace Assembly

/-- Appends zeros up to a multiple of `size` bytes. -/
def padRight (size : Nat) (bytes : Bytes) : Bytes :=
  bytes ++ Bytes.zeros ((size - bytes.length % size) % size)

/-- Appends zeros up to a multiple of `size` bytes; there are no multiples of zero. -/
def padRight? (size : Nat) (bytes : Bytes) : Except AssemblyError Bytes :=
  if size = 0 then .error .zeroMultiple else .ok (padRight size bytes)

/-- A push of at most 32 bytes: the opcode tells how many follow. -/
def push (bytes : Bytes) : Bytes :=
  UInt8.ofNat (0x5f + bytes.length) :: bytes

/-- A push of a number without leading zero bytes. -/
def pushNumber (n : UInt64) : Bytes := push (Bytes.ofUInt64 n)

/-- A push of all bytes of a word. -/
def pushWord (w : Word) : Bytes := push w.bytes

/-- Code that stores one piece of at most 32 bytes at a memory offset. -/
def storePiece (offset : UInt64) (piece : Bytes) : Bytes :=
  push piece ++ pushNumber offset ++ [0x52]

/-- Code that stores consecutive 32-byte pieces from an offset on. -/
def storePieces (offset : UInt64) : List Bytes → Bytes
  | [] => []
  | piece :: rest => storePiece offset piece ++ storePieces (offset + 32) rest

/-- Code that stores a byte string in memory, padded to whole pieces. -/
def mstore (offset : UInt64) (bytes : Bytes) : Bytes :=
  storePieces offset (Bytes.chunks 32 (padRight 32 bytes))

/-- Code that takes the value for a slot off the stack. -/
def storeTop (slot : UInt64) : Bytes := pushNumber slot ++ [0x55]

/-- Code that puts a byte string in memory and returns it. -/
def returnWithData (data : Bytes) : Bytes :=
  mstore 0 data ++ pushNumber (UInt64.ofNat data.length) ++ pushNumber 0 ++ [0xf3]

/-- Code that creates a contract from initialization code, sending no value. -/
def create (initCode : Bytes) : Bytes :=
  mstore 0 initCode ++ pushNumber (UInt64.ofNat initCode.length) ++ pushNumber 0
    ++ pushNumber 0 ++ [0xf0]

/-- Code that creates a contract from initialization code and a salt, sending no value. -/
def create2 (initCode : Bytes) (salt : Word) : Bytes :=
  mstore 0 initCode ++ pushWord salt ++ pushNumber (UInt64.ofNat initCode.length)
    ++ pushNumber 0 ++ pushNumber 0 ++ [0xf5]

/-- The initialization code of a contract with a given runtime. -/
def deploy (runtime : Bytes) : Bytes := returnWithData runtime

/-- One call of the builder. -/
inductive Call where
  | append (opcode : UInt8)
  | pushBytes (bytes : Bytes)
  | pushNumber (n : UInt64)
  | pushWord (w : Word)
  | mstore (offset : UInt64) (bytes : Bytes)
  | sstore (slot : UInt64) (value : Word)
  | storeTop (slot : UInt64)
  | stop
  | returnWithData (data : Bytes)
  | create (initCode : Bytes)
  | create2 (initCode : Bytes) (salt : Word)
deriving DecidableEq

/-- The code of one call; only a given immediate can be too long. -/
def Call.emit : Call → Except AssemblyError Bytes
  | append opcode => .ok [opcode]
  | pushBytes bytes =>
    if bytes.length ≤ 32 then .ok (push bytes) else .error .immediateTooLong
  | pushNumber n => .ok (Assembly.pushNumber n)
  | pushWord w => .ok (Assembly.pushWord w)
  | mstore offset bytes => .ok (Assembly.mstore offset bytes)
  | sstore slot value => .ok (Assembly.pushWord value ++ Assembly.storeTop slot)
  | storeTop slot => .ok (Assembly.storeTop slot)
  | stop => .ok [0x00]
  | returnWithData data => .ok (Assembly.returnWithData data)
  | create initCode => .ok (Assembly.create initCode)
  | create2 initCode salt => .ok (Assembly.create2 initCode salt)

/-- The code of a program: what its calls emit, in order. -/
def assemble : List Call → Except AssemblyError Bytes
  | [] => .ok []
  | call :: rest =>
    match call.emit with
    | .error e => .error e
    | .ok code =>
      match assemble rest with
      | .error e => .error e
      | .ok codes => .ok (code ++ codes)

end Assembly

end CreationGate
