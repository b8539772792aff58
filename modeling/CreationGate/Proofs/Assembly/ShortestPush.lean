import CreationGate.Proofs.Assembly.Disassembly
import Mathlib.Data.List.TakeWhile
import Mathlib.Data.Nat.Digits.Lemmas
import Mathlib.Order.Bounds.Defs

/-!
# Numbers are pushed in their shortest form

A byte string spells a number exactly if it is the shortest spelling of the number behind some
zeros (`Bytes.toNat_eq_iff`), and the shortest spelling is as long as the least power of 256 above
the number tells (`Bytes.length_shortest_le_iff`).  A push of a number has this spelling as its
immediate.
-/

namespace CreationGate

namespace Bytes

/-! ## Shortest spellings -/

theorem toNat_zeros_append (k : Nat) (bytes : Bytes) : (zeros k ++ bytes).toNat = bytes.toNat := by
  induction k with
  | zero => rfl
  | succ k ih =>
    rw [zeros, List.replicate_succ, List.cons_append, toNat_zero_cons]
    exact ih

theorem toNat_shortest (n : Nat) : (shortest n).toNat = n := by
  induction n using Nat.strongRecOn with
  | ind n ih =>
    by_cases hn : n = 0
    · subst hn
      rfl
    · have hlow : (UInt8.ofNat (n % 256)).toNat = n % 256 := by
        rw [UInt8.toNat_ofNat']
        omega
      have hsplit : n / 256 * 256 + (UInt8.ofNat (n % 256)).toNat = n := by omega
      have hnonzero : (UInt8.ofNat (n % 256)).toNat ≠ 0 ∨ n / 256 ≠ 0 := by omega
      have hspelled := shortest_append hnonzero
      rw [hsplit] at hspelled
      rw [hspelled, toNat_append_singleton, ih (n / 256) (by omega), hsplit]

theorem shortest_eq_nil_iff {n : Nat} : shortest n = [] ↔ n = 0 := by
  constructor
  · intro hnil
    by_contra hn
    exact shortest_ne_nil hn hnil
  · rintro rfl
    rfl

/-- The shortest spelling does not begin with a zero. -/
theorem ne_zero_of_mem_head?_shortest {n : Nat} {b : UInt8} (h : b ∈ (shortest n).head?) :
    b ≠ 0 := by
  have hwhole := dropWhile_zero_eq (shortest n)
  rw [toNat_shortest] at hwhole
  have hhead := List.head?_dropWhile_not (· == 0) (shortest n)
  rw [hwhole, Option.mem_def.mp h] at hhead
  simpa using hhead

theorem length_shortest_le_iff {n k : Nat} : (shortest n).length ≤ k ↔ n < 256 ^ k := by
  rw [shortest, List.length_reverse, List.length_map]
  exact Nat.digits_length_le_iff (by decide) n

/-- A number is spelled by its shortest spelling, with any number of zeros in front, and by
nothing else. -/
theorem toNat_eq_iff {bytes : Bytes} {n : Nat} :
    bytes.toNat = n ↔ ∃ k, bytes = zeros k ++ shortest n := by
  constructor
  · rintro rfl
    have hzeros : bytes.takeWhile (· == 0) = zeros (bytes.takeWhile (· == 0)).length := by
      refine List.eq_replicate_of_mem fun b hb => ?_
      simpa using List.mem_takeWhile_imp hb
    refine ⟨(bytes.takeWhile (· == 0)).length, ?_⟩
    rw [← hzeros, ← dropWhile_zero_eq, List.takeWhile_append_dropWhile]
  · rintro ⟨k, rfl⟩
    rw [toNat_zeros_append, toNat_shortest]

end Bytes

namespace Assembly

theorem pushNumber_inj {m n : UInt64} : pushNumber m = pushNumber n ↔ m = n := by
  refine ⟨fun h => ?_, congrArg pushNumber⟩
  have himmediates : Bytes.ofUInt64 m = Bytes.ofUInt64 n := (List.cons.inj h).2
  have hnumbers := congrArg Bytes.toNat himmediates
  rw [Bytes.toNat_ofUInt64, Bytes.toNat_ofUInt64] at hnumbers
  exact UInt64.toNat_inj.mp hnumbers

/-- **A number is pushed exactly, and in no more bytes than it needs.**  The code is one push, which
is never refused for the length of its immediate and decodes to itself whatever follows.  The
immediate spells the number in the least number of bytes that hold it: none for zero, and
otherwise the first byte is not zero.  Every other immediate that spells the number has zeros in
front of this one, and no other number has this code. -/
theorem pushed_number_is_shortest (n : UInt64) :
    ∃ immediate : Bytes,
      pushNumber n = UInt8.ofNat (0x5f + immediate.length) :: immediate
        ∧ (Call.pushBytes immediate).emit = .ok (pushNumber n)
        ∧ (∀ rest, disassemble (pushNumber n ++ rest) = .push immediate :: disassemble rest)
        ∧ immediate.toNat = n.toNat
        ∧ IsLeast {k | n.toNat < 256 ^ k} immediate.length
        ∧ (immediate = [] ↔ n = 0)
        ∧ (∀ b ∈ immediate.head?, b ≠ 0)
        ∧ (∀ bytes : Bytes, bytes.toNat = n.toNat ↔ ∃ k, bytes = Bytes.zeros k ++ immediate)
        ∧ ∀ m, pushNumber m = pushNumber n ↔ m = n := by
  have himmediate := Bytes.ofUInt64_eq n
  have hlength : (Bytes.shortest n.toNat).length ≤ 32 := Bytes.length_shortest_le n.toNat_lt
  have hcode : pushNumber n = push (Bytes.shortest n.toNat) := by
    rw [pushNumber, himmediate]
  refine ⟨Bytes.shortest n.toNat, hcode, ?_, ?_, Bytes.toNat_shortest _, ⟨?_, ?_⟩, ?_, ?_, ?_, ?_⟩
  · rw [Call.emit, if_pos hlength, hcode]
  · intro rest
    rw [hcode, disassemble_push hlength]
  · exact Bytes.length_shortest_le_iff.mp (Nat.le_refl _)
  · intro k hk
    exact Bytes.length_shortest_le_iff.mpr hk
  · rw [Bytes.shortest_eq_nil_iff, ← UInt64.toNat_inj]
    rfl
  · intro b hb
    exact Bytes.ne_zero_of_mem_head?_shortest hb
  · intro bytes
    exact Bytes.toNat_eq_iff
  · intro m
    exact pushNumber_inj

/-- On both sides of a power of 256. -/
example : pushNumber 0 = [0x5f] ∧ pushNumber 0xffff = [0x61, 0xff, 0xff]
    ∧ pushNumber 0x10000 = [0x62, 1, 0, 0] := by
  decide

end Assembly

end CreationGate
