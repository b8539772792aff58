import CreationGate.Registry.Key

/-!
# Member keys

A byte string is read as the key of an account exactly if it is that account's key
(`Key.account?_eq_some_iff`), so no two accounts share a key, whatever their digests are.
-/

namespace CreationGate

namespace Key

/-! ## The codec -/

theorem length_ofAccount (account : Account) : (ofAccount account).length = length := by
  unfold ofAccount length
  rw [List.length_append, List.length_append, FixedBytes.length_eq, FixedBytes.length_eq]

theorem marker_isPrefixOf_ofAccount (account : Account) :
    marker.isPrefixOf (ofAccount account) = true := by
  rw [List.isPrefixOf_iff_prefix, ofAccount, List.append_assoc]
  exact List.prefix_append _ _

/-- The key of an account is read as that account. -/
theorem account?_ofAccount (account : Account) : account? (ofAccount account) = some account := by
  have hlen := length_ofAccount account
  have hpre := marker_isPrefixOf_ofAccount account
  have hrest : (ofAccount account).drop marker.length
      = (blake2b128 account.bytes).bytes ++ account.bytes := by
    rw [ofAccount, List.append_assoc, List.drop_left]
  have hdigest : ((blake2b128 account.bytes).bytes ++ account.bytes).take 16
      = (blake2b128 account.bytes).bytes := List.take_left' (FixedBytes.length_eq _)
  have haccount : ((blake2b128 account.bytes).bytes ++ account.bytes).drop 16
      = account.bytes := List.drop_left' (FixedBytes.length_eq _)
  unfold account?
  simp only [hlen, hpre, bne_self_eq_false, Bool.not_true, Bool.or_self, Bool.false_eq_true,
    ↓reduceIte, hrest, hdigest, haccount]
  exact FixedBytes.ofBytes?_bytes account

/-- A byte string that is read as an account is the key of that account. -/
theorem eq_ofAccount_of_account? {key : Bytes} {account : Account}
    (h : account? key = some account) : key = ofAccount account := by
  unfold account? at h
  split at h
  · cases h
  · next hform =>
    simp only [Bool.or_eq_true, bne_iff_ne, ne_eq, Bool.not_eq_true', not_or, Decidable.not_not,
      Bool.not_eq_false] at hform
    obtain ⟨rest, rfl⟩ := List.isPrefixOf_iff_prefix.mp hform.2
    rw [List.drop_left] at h
    simp only at h
    split at h
    · next hdigest =>
      have haccount := FixedBytes.ofBytes?_eq_some_iff.mp h
      rw [ofAccount, ← haccount, ← hdigest, List.append_assoc, List.take_append_drop]
    · cases h

/-- A byte string is read as an account exactly if it is the key of that account. -/
theorem account?_eq_some_iff {key : Bytes} {account : Account} :
    account? key = some account ↔ key = ofAccount account :=
  ⟨eq_ofAccount_of_account?, fun h => h ▸ account?_ofAccount account⟩

/-- Different accounts have different keys. -/
theorem ofAccount_inj {a b : Account} : ofAccount a = ofAccount b ↔ a = b := by
  constructor
  · intro h
    have hread := account?_ofAccount a
    rw [h, account?_ofAccount b] at hread
    exact (Option.some.inj hread).symm
  · rintro rfl
    rfl

/-- No cut of the reader falls behind the end of what it cuts: a string of the length of a
member key is long enough for all of them, and no other string is cut. -/
theorem decode_eq (key : Bytes) : decode key = .ok (account? key) := by
  unfold decode account?
  by_cases hform : (key.length != length || !marker.isPrefixOf key) = true
  · rw [if_pos hform, if_pos hform]
    rfl
  · rw [if_neg hform, if_neg hform]
    have hlength : key.length = marker.length + 16 + 32 := by
      simp only [Bool.or_eq_true, not_or, bne_iff_ne, ne_eq, Decidable.not_not] at hform
      exact hform.1
    have hstart : marker.length ≤ key.length := by omega
    have hmiddle : 16 ≤ (key.drop marker.length).length := by
      rw [List.length_drop]
      omega
    simp only [Bytes.suffixFrom, Bytes.cutAt, if_pos hstart, pure, Except.pure, bind,
      Except.bind, if_pos hmiddle]
    split <;> rfl

end Key

/-- **A member key stands for one account, and nothing else is read as one.**  Whatever the
digests collide on, reading inverts writing, different accounts have different keys, and a byte
string that is not put together as a key, of whatever length it is, is read as none; the
reader never cuts behind the end of a string. -/
theorem member_keys_are_read_exactly :
    (∀ key account, Key.account? key = some account ↔ key = Key.ofAccount account)
      ∧ (∀ account, Key.account? (Key.ofAccount account) = some account)
      ∧ (∀ a b, Key.ofAccount a = Key.ofAccount b → a = b)
      ∧ (∀ key, Key.account? key = none ↔ ∀ account : Account,
        key ≠ Key.marker ++ (blake2b128 account.bytes).bytes ++ account.bytes)
      ∧ ∀ key, Key.decode key = .ok (Key.account? key) := by
  refine ⟨fun key account => Key.account?_eq_some_iff, Key.account?_ofAccount,
    fun a b => Key.ofAccount_inj.mp, fun key => ?_, Key.decode_eq⟩
  rw [Option.eq_none_iff_forall_ne_some]
  constructor
  · intro hnone account hkey
    exact hnone account (Key.account?_eq_some_iff.mpr hkey)
  · intro hother account hread
    exact hother account (Key.account?_eq_some_iff.mp hread)

end CreationGate
