import CreationGate.Assembly.Instruction
import CreationGate.Evm.Gas
import CreationGate.Evm.Memory

/-!
# The machine of a frame

Stack, memory and gas, and the instructions that touch nothing else.  An instruction is
charged its fixed price before it looks at the stack.
-/

namespace CreationGate

/-- Why a frame stops in an error. -/
inductive HaltReason where
  | outOfGas
  | memoryLimit
  | invalidOperand
  | reentrancySentry
  | opcodeNotFound
  | invalidOpcode
  | notActivated
  | stackUnderflow
  | stackOverflow
  | createCollision
  | overflowPayment
  | codeSizeLimit
  | initCodeSizeLimit
  | reservedCode
  | outOfFunds
  | callTooDeep
deriving DecidableEq

/-- The name of the error as it is reported. -/
def HaltReason.text : HaltReason → String
  | outOfGas => "OutOfGas(Basic)"
  | memoryLimit => "OutOfGas(MemoryLimit)"
  | invalidOperand => "OutOfGas(InvalidOperand)"
  | reentrancySentry => "OutOfGas(ReentrancySentry)"
  | opcodeNotFound => "OpcodeNotFound"
  | invalidOpcode => "InvalidFEOpcode"
  | notActivated => "NotActivated"
  | stackUnderflow => "StackUnderflow"
  | stackOverflow => "StackOverflow"
  | createCollision => "CreateCollision"
  | overflowPayment => "OverflowPayment"
  | codeSizeLimit => "CreateContractSizeLimit"
  | initCodeSizeLimit => "CreateInitCodeSizeLimit"
  | reservedCode => "CreateContractStartingWithEF"
  | outOfFunds => "OutOfFunds"
  | callTooDeep => "CallTooDeep"

/-- How a frame ends. -/
inductive Finish where
  | stopped
  | returned
  /-- With output, undoing its effects. -/
  | reverted
  | halted (reason : HaltReason)
deriving DecidableEq

namespace Finish

/-- Whether the frame keeps its effects. -/
def isSuccess : Finish → Bool
  | stopped => true
  | returned => true
  | _ => false

/-- Whether the gas left over goes back to who paid for it. -/
def keepsGas : Finish → Bool
  | halted .outOfFunds => true
  | halted .callTooDeep => true
  | halted _ => false
  | _ => true

end Finish

/-- The state of a running frame. -/
structure Machine where
  /-- The stack, top first. -/
  stack : List Word := []
  memory : Memory := .empty
  gas : Nat
  refund : Int := 0
  returnData : Bytes := []

namespace Machine

/-- Takes a price off the gas. -/
def charge (m : Machine) (price : Nat) : Except HaltReason Machine :=
  if price ≤ m.gas then .ok { m with gas := m.gas - price } else .error .outOfGas

/-- Puts a word on the stack, which holds 1024 of them. -/
def push (m : Machine) (w : Word) : Except HaltReason Machine :=
  if m.stack.length < 1024 then .ok { m with stack := w :: m.stack } else .error .stackOverflow

/-- Takes a word off the stack. -/
def pop (m : Machine) : Except HaltReason (Word × Machine) :=
  match m.stack with
  | a :: rest => .ok (a, { m with stack := rest })
  | _ => .error .stackUnderflow

/-- Takes two words off the stack, and neither if there is only one. -/
def pop2 (m : Machine) : Except HaltReason (Word × Word × Machine) :=
  match m.stack with
  | a :: b :: rest => .ok (a, b, { m with stack := rest })
  | _ => .error .stackUnderflow

/-- Takes three words off the stack, and none if there are fewer. -/
def pop3 (m : Machine) : Except HaltReason (Word × Word × Word × Machine) :=
  match m.stack with
  | a :: b :: c :: rest => .ok (a, b, c, { m with stack := rest })
  | _ => .error .stackUnderflow

/-- An offset or a length, which has to fit in 64 bits. -/
def index (w : Word) : Except HaltReason Nat :=
  if w.toNat ≤ maxUInt64 then .ok w.toNat else .error .invalidOperand

/-- Makes room for `length` bytes from an offset on and pays for the words that are new. -/
def reach (m : Machine) (offset length : Nat) : Except HaltReason Machine :=
  let target := Gas.words (offset + length)
  let current := m.memory.size / 32
  if target ≤ current then .ok m
  else
    let price := Gas.memory target - Gas.memory current
    if price ≤ m.gas then
      .ok { m with gas := m.gas - price, memory := m.memory.grow (32 * target) }
    else .error .memoryLimit

/-- The sum of two words, modulo the size of a word. -/
def add (m : Machine) : Except HaltReason Machine := do
  let (a, b, m) ← (← m.charge 3).pop2
  m.push (a + b)

/-- Takes a word off the stack and forgets it. -/
def drop (m : Machine) : Except HaltReason Machine := do
  let (_, m) ← (← m.charge 2).pop
  return m

/-- Pushes what an immediate spells; a push without one came with the Shanghai rules. -/
def pushImmediate (m : Machine) (spec : Spec) (immediate : Bytes) :
    Except HaltReason Machine := do
  let m ← m.charge (if immediate.isEmpty then 2 else 3)
  if immediate.isEmpty && !spec.includes .shanghai then throw .notActivated
  m.push (Word.ofBytes immediate)

/-- Writes a word to memory. -/
def mstore (m : Machine) : Except HaltReason Machine := do
  let (offset, value, m) ← (← m.charge 3).pop2
  let offset ← index offset
  let m ← m.reach offset 32
  return { m with memory := m.memory.write offset value.bytes }

/-- Writes the lowest byte of a word to memory. -/
def mstore8 (m : Machine) : Except HaltReason Machine := do
  let (offset, value, m) ← (← m.charge 3).pop2
  let offset ← index offset
  let m ← m.reach offset 1
  return { m with memory := m.memory.write offset [UInt8.ofNat (value.toNat % 256)] }

/-- Reads `length` bytes of memory from an offset on.  The offset of an empty range is
not looked at. -/
def readRange (m : Machine) (offset : Word) (length : Nat) :
    Except HaltReason (Bytes × Machine) := do
  if length = 0 then return ([], m)
  let offset ← index offset
  let m ← m.reach offset length
  return (m.memory.read offset length, m)

/-- Takes the range of the output off the stack and reads it. -/
def output (m : Machine) : Except HaltReason (Bytes × Machine) := do
  let (offset, length, m) ← m.pop2
  m.readRange offset (← index length)

end Machine

end CreationGate
