import CreationGate.Word

/-!
# Memory

The byte memory of a frame.  It grows in whole words and grown bytes are zero.
-/

namespace CreationGate

/-- A byte memory. -/
structure Memory where
  cells : Array UInt8
deriving DecidableEq

namespace Memory

/-- The memory that a frame begins with. -/
def empty : Memory := ⟨#[]⟩

/-- How many bytes there are. -/
def size (memory : Memory) : Nat := memory.cells.size

/-- The byte at an offset; bytes not there yet are zero. -/
def get (memory : Memory) (offset : Nat) : UInt8 := memory.cells[offset]?.getD 0

/-- The memory with at least `n` bytes. -/
def grow (memory : Memory) (n : Nat) : Memory :=
  ⟨memory.cells ++ Array.replicate (n - memory.size) 0⟩

/-- Writes bytes from an offset on; what would stand behind the end is dropped. -/
def writeCells (cells : Array UInt8) (offset : Nat) : Bytes → Array UInt8
  | [] => cells
  | b :: rest => writeCells (cells.setIfInBounds offset b) (offset + 1) rest

/-- The memory with bytes written from an offset on; it must be large enough. -/
def write (memory : Memory) (offset : Nat) (bytes : Bytes) : Memory :=
  ⟨writeCells memory.cells offset bytes⟩

/-- The bytes of a range; it must be within the memory. -/
def read (memory : Memory) (offset length : Nat) : Bytes :=
  (memory.cells.extract offset (offset + length)).toList

end Memory

end CreationGate
