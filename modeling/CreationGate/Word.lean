import CreationGate.Bytes.Basic

/-!
# Words

The 256-bit words that the machine computes with.
-/

namespace CreationGate

/-- A 256-bit word. -/
abbrev Word := BitVec 256

instance : Std.TransOrd Word := inferInstance
instance : Std.LawfulEqOrd Word := inferInstance

namespace Word

/-- How many words there are. -/
def size : Nat := 1 <<< 256

/-- The 32 bytes that spell a word. -/
def bytes (w : Word) : Bytes := Bytes.ofNat 32 w.toNat

@[simp] theorem length_bytes (w : Word) : w.bytes.length = 32 := by simp [bytes]

/-- The word that a byte string of at most 32 bytes spells. -/
def ofBytes (bytes : Bytes) : Word := BitVec.ofNat 256 bytes.toNat

end Word

end CreationGate
