import CreationGate.Bytes.Hex

/-!
# Byte strings of a fixed length

`FixedBytes n` holds exactly `n` bytes and is ordered like its bytes.
-/

namespace CreationGate

/-- A byte string of length `n`. -/
structure FixedBytes (n : Nat) where
  bytes : Bytes
  length_eq : bytes.length = n
deriving DecidableEq

namespace FixedBytes

variable {n : Nat}

@[ext] theorem ext {a b : FixedBytes n} (h : a.bytes = b.bytes) : a = b := by
  cases a; cases b; cases h; rfl

/-- The string of `n` copies of one byte. -/
def repeated (n : Nat) (b : UInt8) : FixedBytes n :=
  ⟨List.replicate n b, by simp⟩

instance : Inhabited (FixedBytes n) := ⟨repeated n 0⟩

/-- The string as a fixed one, if its length is `n`. -/
def ofBytes? (n : Nat) (bytes : Bytes) : Option (FixedBytes n) :=
  if h : bytes.length = n then some ⟨bytes, h⟩ else none

@[simp] theorem ofBytes?_bytes (a : FixedBytes n) : ofBytes? n a.bytes = some a := by
  simp [ofBytes?, a.length_eq]

theorem ofBytes?_eq_some_iff {bytes : Bytes} {a : FixedBytes n} :
    ofBytes? n bytes = some a ↔ bytes = a.bytes := by
  constructor
  · intro h
    unfold ofBytes? at h
    split at h
    · cases h; rfl
    · cases h
  · rintro rfl
    exact ofBytes?_bytes a

/-- The `n` low bytes of a number, most significant first. -/
def ofNat (n : Nat) (value : Nat) : FixedBytes n :=
  ⟨Bytes.ofNat n value, by simp⟩

/-- The number that the bytes spell, most significant first. -/
def toNat (a : FixedBytes n) : Nat := a.bytes.toNat

instance : Ord (FixedBytes n) := ⟨fun a b => compare a.bytes b.bytes⟩

theorem compare_def (a b : FixedBytes n) : compare a b = compare a.bytes b.bytes := rfl

instance : Std.TransOrd (FixedBytes n) where
  eq_swap {_ _} := by rw [compare_def, compare_def]; exact Std.OrientedCmp.eq_swap
  isLE_trans {a b c} h₁ h₂ := by
    rw [compare_def] at h₁ h₂ ⊢
    exact Std.TransCmp.isLE_trans h₁ h₂

instance : Std.LawfulEqOrd (FixedBytes n) where
  compare_self {_} := by rw [compare_def]; exact Std.ReflCmp.compare_self
  eq_of_compare {_ _} h := by rw [compare_def] at h; exact ext (Std.LawfulEqCmp.eq_of_compare h)

/-- The digits of the bytes behind the marker `0x`. -/
def hex (a : FixedBytes n) : String := Hex.prefixed a.bytes

end FixedBytes

end CreationGate
