import CreationGate.Word
import Mathlib.Algebra.Group.Nat.Defs
import Mathlib.Data.List.Induction

/-!
# What byte strings spell

A byte string and the number that it spells say the same once the length is known, and zeros
in front say nothing.  So a word and its 32 bytes are exchangeable, and a word pushed from the
shortest spelling of a 64-bit number is that number.  A string cut into pieces is put together
again by appending them.
-/

namespace CreationGate

namespace Bytes

/-! ## Numbers -/

theorem toNat_lt (bytes : Bytes) : bytes.toNat < 256 ^ bytes.length := by
  induction bytes using List.reverseRecOn with
  | nil => rw [toNat_nil, List.length_nil, Nat.pow_zero]; exact Nat.one_pos
  | append_singleton bytes b ih =>
    have hb : b.toNat < 256 := UInt8.toNat_lt b
    rw [toNat_append_singleton, List.length_append, List.length_singleton, Nat.pow_succ]
    omega

/-- A byte string is what its number is written as in that many bytes. -/
theorem ofNat_toNat (bytes : Bytes) : ofNat bytes.length bytes.toNat = bytes := by
  induction bytes using List.reverseRecOn with
  | nil => rfl
  | append_singleton bytes b ih =>
    have hb : b.toNat < 256 := UInt8.toNat_lt b
    have hhigh : (toNat bytes * 256 + b.toNat) / 256 = toNat bytes := by omega
    have hlow : (toNat bytes * 256 + b.toNat) % 256 = b.toNat := by omega
    rw [toNat_append_singleton, List.length_append, List.length_singleton, ofNat, hhigh, hlow, ih,
      UInt8.ofNat_toNat]

theorem toNat_zero_cons (bytes : Bytes) : toNat (0 :: bytes) = bytes.toNat := rfl

/-- Zeros in front do not count. -/
theorem toNat_dropWhile_zero (bytes : Bytes) :
    toNat (bytes.dropWhile (· == 0)) = bytes.toNat := by
  induction bytes with
  | nil => rfl
  | cons b rest ih =>
    by_cases hb : b = 0
    · subst hb
      rw [List.dropWhile_cons_of_pos (by rfl), ih, toNat_zero_cons]
    · rw [List.dropWhile_cons_of_neg (by simpa using hb)]

theorem toNat_ofUInt64 (n : UInt64) : (ofUInt64 n).toNat = n.toNat := by
  rw [ofUInt64, toNat_dropWhile_zero, toNat_ofNat]
  exact Nat.mod_eq_of_lt n.toNat_lt

theorem length_ofUInt64_le (n : UInt64) : (ofUInt64 n).length ≤ 8 := by
  have hshorter := (List.dropWhile_sublist (l := ofNat 8 n.toNat) (· == 0)).length_le
  rw [length_ofNat] at hshorter
  exact hshorter

/-! ## Pieces -/

theorem flatten_chunks {size : Nat} (hsize : 0 < size) (bytes : Bytes) :
    (chunks size bytes).flatten = bytes := by
  have hgo : ∀ (fuel : Nat) (bytes : Bytes), bytes.length ≤ fuel →
      (chunks.go size bytes fuel).flatten = bytes := by
    intro fuel
    induction fuel with
    | zero =>
      intro bytes hfuel
      rw [List.eq_nil_of_length_eq_zero (Nat.le_zero.mp hfuel)]
      rfl
    | succ fuel ih =>
      intro bytes hfuel
      cases bytes with
      | nil => rfl
      | cons b rest =>
        have hdrop : ((b :: rest).drop size).length ≤ fuel := by
          rw [List.length_drop]
          omega
        rw [chunks.go, List.flatten_cons, ih _ hdrop, List.take_append_drop]
  exact hgo bytes.length bytes (Nat.le_refl _)

/-- The pieces of a string of full length have full length, the last one included. -/
theorem length_of_mem_chunks {size : Nat} {bytes piece : Bytes} (hwhole : size ∣ bytes.length)
    (hpiece : piece ∈ chunks size bytes) : piece.length = size := by
  have hgo : ∀ (fuel : Nat) (bytes : Bytes), size ∣ bytes.length →
      piece ∈ chunks.go size bytes fuel → piece.length = size := by
    intro fuel
    induction fuel with
    | zero =>
      intro bytes _ hpiece
      cases hpiece
    | succ fuel ih =>
      intro bytes hwhole hpiece
      cases bytes with
      | nil => cases hpiece
      | cons b rest =>
        have hle : size ≤ (b :: rest).length := Nat.le_of_dvd (Nat.succ_pos _) hwhole
        rw [chunks.go, List.mem_cons] at hpiece
        rcases hpiece with rfl | hlater
        · exact List.length_take_of_le hle
        · refine ih _ ?_ hlater
          rw [List.length_drop]
          exact Nat.dvd_sub hwhole (Nat.dvd_refl size)
  exact hgo bytes.length bytes hwhole hpiece

end Bytes

/-! ## Words -/

namespace Word

theorem toNat_ofBytes {bytes : Bytes} (h : bytes.length ≤ 32) :
    (ofBytes bytes).toNat = bytes.toNat := by
  have hlt := bytes.toNat_lt
  have hle : 256 ^ bytes.length ≤ 256 ^ 32 := Nat.pow_le_pow_right (by decide) h
  rw [ofBytes, BitVec.toNat_ofNat]
  exact Nat.mod_eq_of_lt (by omega)

theorem bytes_ofBytes {bytes : Bytes} (h : bytes.length = 32) : (ofBytes bytes).bytes = bytes := by
  have hback := bytes.ofNat_toNat
  rw [h] at hback
  rw [Word.bytes, toNat_ofBytes (Nat.le_of_eq h), hback]

theorem ofBytes_bytes (w : Word) : ofBytes w.bytes = w := by
  refine BitVec.eq_of_toNat_eq ?_
  rw [toNat_ofBytes (Nat.le_of_eq w.length_bytes), Word.bytes, Bytes.toNat_ofNat]
  exact Nat.mod_eq_of_lt w.isLt

theorem toNat_ofUInt64 (n : UInt64) : (ofBytes (Bytes.ofUInt64 n)).toNat = n.toNat := by
  have hshort := Bytes.length_ofUInt64_le n
  rw [toNat_ofBytes (by omega), Bytes.toNat_ofUInt64]

/-- A number of 64 bits is pushed as it is. -/
theorem toNat_ofUInt64_ofNat {n : Nat} (h : n < 2 ^ 64) :
    (ofBytes (Bytes.ofUInt64 (UInt64.ofNat n))).toNat = n := by
  rw [toNat_ofUInt64, UInt64.toNat_ofNat_of_lt' h]

end Word

end CreationGate
