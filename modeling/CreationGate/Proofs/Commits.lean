import CreationGate.Proofs.Copies

/-!
# Writing a transaction back

The accounts of a transaction are written back one by one, and each address is written at most
once.  So what is held at an address afterwards is what writing the account of that address
alone leaves there (`World.held_commit`).  Code once stored stays, so an account whose code is
known reads as having the same code afterwards (`World.codeFor_storeCode`).  Destroying an
account drops all of it and every other write makes it present, so nothing is kept of an account
that is known to be absent (`World.HidesNothing`).
-/

namespace CreationGate

namespace World

/-! ## Accounts -/

theorem slot?_eq (world : World) (address : Address) (slot : Word) :
    world.slot? address slot = (world.held address).slots.get? slot := by
  unfold slot? World.held
  cases world.accounts.get? address <;> rfl

/-- What storing its code makes of an account does not depend on the world. -/
theorem storeCode_fst (w v : World) (info : AccountInfo) :
    (w.storeCode info).1 = (v.storeCode info).1 := by
  unfold storeCode
  split <;> rfl

theorem held_storeCode (world : World) (info : AccountInfo) (a : Address) :
    (world.storeCode info).2.held a = world.held a := by
  rw [World.held, accounts_storeCode, World.held]

theorem held_commitAccount_of_ne {address a : Address} (h : a ≠ address) (world : World)
    (live : LiveAccount) : (world.commitAccount address live).held a = world.held a := by
  rw [commitAccount_eq]
  split
  next => rfl
  next =>
    split
    next => rw [held_withHeld, if_neg h]
    next => rw [held_withHeld, if_neg h, held_storeCode]

theorem held_commitAccount (world : World) (address : Address) (live : LiveAccount) :
    (world.commitAccount address live).held address
      = if !live.touched then world.held address
        else if live.destroyed then .missing
        else (world.held address).committed (world.storeCode live.info).1 live := by
  rw [commitAccount_eq]
  split
  next => rfl
  next =>
    split
    next => rw [held_withHeld, if_pos rfl]
    next => rw [held_withHeld, if_pos rfl, held_storeCode]

theorem held_commitAccount_congr {w v : World} {address : Address}
    (h : w.held address = v.held address) (live : LiveAccount) :
    (w.commitAccount address live).held address = (v.commitAccount address live).held address := by
  rw [held_commitAccount, held_commitAccount, h, storeCode_fst w v]

/-- By induction on the accounts that are written back: no address is written twice, so only
the account of an address itself says what is held there. -/
theorem held_commit (world : World) (changes : LiveAccounts) (a : Address) :
    (world.commit changes).held a
      = match changes.get? a with
        | none => world.held a
        | some live => (world.commitAccount a live).held a := by
  have hsorted := changes.sorted
  unfold commit SortedMap.get?
  generalize changes.entries = entries at hsorted
  induction entries generalizing world with
  | nil => rfl
  | cons e rest ih =>
    obtain ⟨hfirst, hrest⟩ := List.pairwise_cons.mp hsorted
    rw [List.foldl_cons, ih _ hrest]
    by_cases ha : a = e.1
    · subst ha
      have hnone : SortedMap.lookup e.1 rest = none := SortedMap.lookup_eq_none_of_forall_lt hfirst
      rw [hnone]
      simp only [SortedMap.lookup, Std.ReflCmp.compare_self, if_true]
    · have hne : ¬compare a e.1 = .eq := fun heq => ha (Std.LawfulEqCmp.eq_of_compare heq)
      have hkept := held_commitAccount_of_ne ha world e.2
      simp only [SortedMap.lookup, if_neg hne]
      split
      next => exact hkept
      next live _ => exact held_commitAccount_congr hkept live

/-- A touched account that is not destroyed is held as it was left. -/
theorem held_commit_of_touched {world : World} {changes : LiveAccounts} {a : Address}
    {live : LiveAccount} (hget : changes.get? a = some live) (htouched : live.touched = true)
    (hkept : live.destroyed = false) :
    (world.commit changes).held a
      = (world.held a).committed (world.storeCode live.info).1 live := by
  rw [held_commit, hget]
  simp only
  rw [held_commitAccount, htouched, hkept]
  rfl

/-- A slot that such an account has read or written is held as it was left. -/
theorem slot?_commit {world : World} {changes : LiveAccounts} {a : Address} {live : LiveAccount}
    (hget : changes.get? a = some live) (htouched : live.touched = true)
    (hkept : live.destroyed = false) {slot : Word} {s : Slot}
    (hslot : live.slots.get? slot = some s) :
    (world.commit changes).slot? a slot = some s.present := by
  rw [slot?_eq, held_commit_of_touched hget htouched hkept, HeldAccount.committed,
    SortedMap.get?_extend, SortedMap.get?_mapValues, hslot]
  rfl

/-! ## Absences -/

/-- A world in which nothing is kept of an account that is known to be absent. -/
def HidesNothing (world : World) : Prop :=
  ∀ address, (world.held address).mark = .absent → (world.held address).info = {}

namespace HidesNothing

variable {world : World}

theorem empty : HidesNothing .empty := fun _ _ => rfl

theorem of_addsCopies {more : World} (h : world.HidesNothing) (hadds : more.AddsCopies world) :
    more.HidesNothing := by
  intro a hmark
  rw [(hadds.held a).mark] at hmark
  rw [(hadds.held a).info]
  exact h a hmark

theorem withHeld (h : world.HidesNothing) (address : Address) {held : HeldAccount}
    (habsent : held.mark = .absent → held.info = {}) :
    (world.withHeld address held).HidesNothing := by
  intro a
  rw [held_withHeld]
  split
  next => exact habsent
  next => exact h a

theorem storeCode (h : world.HidesNothing) (info : AccountInfo) :
    (world.storeCode info).2.HidesNothing := by
  intro a
  rw [held_storeCode]
  exact h a

theorem setBalance (h : world.HidesNothing) (address : Address) (balance : Nat) :
    (world.setBalance address balance).HidesNothing := by
  rw [setBalance_eq]
  exact h.withHeld address fun hmark => by cases hmark

theorem putAccount (h : world.HidesNothing) (address : Address) (info : AccountInfo)
    (slots : List (Word × Word)) : (world.putAccount address info slots).HidesNothing :=
  (h.storeCode info).withHeld address fun hmark => absurd hmark (AccountMark.present_ne _)

theorem commitAccount (h : world.HidesNothing) (address : Address) (live : LiveAccount) :
    (world.commitAccount address live).HidesNothing := by
  rw [commitAccount_eq]
  split
  next => exact h
  next =>
    split
    next => exact h.withHeld address fun _ => rfl
    next =>
      exact (h.storeCode live.info).withHeld address fun hmark =>
        absurd hmark (HeldAccount.mark_committed_ne _ _ live)

/-- By induction on the accounts that are written back. -/
theorem commit (h : world.HidesNothing) (changes : LiveAccounts) :
    (world.commit changes).HidesNothing := by
  unfold World.commit
  induction changes.entries generalizing world with
  | nil => exact h
  | cons e rest ih => exact ih (h.commitAccount e.1 e.2)

end HidesNothing

/-! ## Code -/

/-- A world in which all code of another one is stored. -/
def KeepsCodes (later world : World) : Prop :=
  ∀ digest code, world.codes.get? digest = some code → later.codes.get? digest = some code

theorem KeepsCodes.refl (world : World) : KeepsCodes world world := fun _ _ h => h

theorem keepsCodes_addCode (world : World) (digest : Digest) (code : Bytes) :
    (world.addCode digest code).KeepsCodes world := by
  intro d c h
  unfold addCode
  split
  next => exact h
  next hnew =>
    rw [SortedMap.get?_insert]
    split
    next hd =>
      rw [← hd, SortedMap.contains, h] at hnew
      exact absurd rfl hnew
    next => exact h

theorem keepsCodes_storeCode (world : World) (info : AccountInfo) :
    (world.storeCode info).2.KeepsCodes world := by
  unfold storeCode
  split
  next => exact world.keepsCodes_addCode _ _
  next => exact .refl world

theorem keepsCodes_commitAccount (world : World) (address : Address) (live : LiveAccount) :
    (world.commitAccount address live).KeepsCodes world := by
  rw [commitAccount_eq]
  split
  next => exact .refl world
  next =>
    split
    next => exact .refl world
    next => exact world.keepsCodes_storeCode live.info

theorem keepsCodes_commit (world : World) (changes : LiveAccounts) :
    (world.commit changes).KeepsCodes world := by
  unfold commit
  induction changes.entries generalizing world with
  | nil => exact .refl world
  | cons e rest ih => exact fun d c h => ih _ d c (world.keepsCodes_commitAccount e.1 e.2 d c h)

theorem code_storeCode (world : World) (info : AccountInfo) :
    (world.storeCode info).1.code = info.code := by
  unfold storeCode
  split <;> rfl

/-- Code that is known reads the same where more code is stored. -/
theorem codeFor_of_keepsCodes {later world : World} (h : later.KeepsCodes world)
    {info : AccountInfo} (hknows : world.Knows info) :
    later.codeFor info = world.codeFor info := by
  unfold codeFor
  cases hcode : info.code with
  | some code => rfl
  | none =>
    obtain ⟨code, hstored⟩ := Option.isSome_iff_exists.mp (hknows hcode)
    rw [codeOf_value, codeOf_value, hstored, h _ _ hstored]

/-- An account whose code is known is written back with the code that it had, if zeros stand
for no code. -/
theorem codeFor_storeCode {later world : World} (h : later.KeepsCodes world)
    (hzero : world.codes.get? (.repeated 32 0) = some []) {info : AccountInfo}
    (hknows : world.Knows info) :
    later.codeFor (world.storeCode info).1 = world.codeFor info := by
  cases hcode : info.code with
  | some code =>
    rw [codeFor, code_storeCode, codeFor, hcode, Option.getD_some, Option.getD_some]
  | none =>
    have hstored : (world.storeCode info).1 = { info with
        codeHash := if info.codeHash = .repeated 32 0 then emptyCodeHash else info.codeHash } := by
      unfold storeCode
      rw [hcode]
    rw [hstored]
    by_cases hdigest : info.codeHash = .repeated 32 0
    · rw [if_pos hdigest, codeFor, codeFor, hcode, hdigest, codeOf_value, codeOf_value, hzero,
        later.emptyCode]
    · rw [if_neg hdigest]
      exact codeFor_of_keepsCodes h hknows

end World

end CreationGate
