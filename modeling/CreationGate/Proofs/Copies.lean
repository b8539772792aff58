import CreationGate.Evm.Diff
import CreationGate.Proofs.Reading

/-!
# Copies in a world

A world that was read from knows more than before: that an account is absent, or that a slot
is zero.  `World.AddsCopies` says that this is all in which a world differs from another one.
Such worlds read alike, and whatever is written to both leaves such worlds again.  Code is
never among the copies where each account's code is stored (`World.Complete`).
-/

namespace CreationGate

/-! ## Accounts -/

namespace HeldAccount

/-- An account as another one, with copies of slots that read zero added. -/
structure AddsCopies (held reference : HeldAccount) : Prop where
  info : held.info = reference.info
  mark : held.mark = reference.mark
  slots : ∀ slot, held.slots.get? slot = reference.slots.get? slot
    ∨ reference.slots.get? slot = none ∧ held.slots.get? slot = some 0

namespace AddsCopies

variable {held reference : HeldAccount}

theorem refl (held : HeldAccount) : AddsCopies held held :=
  ⟨rfl, rfl, fun _ => .inl rfl⟩

theorem trans {h₁ h₂ h₃ : HeldAccount} (h : AddsCopies h₁ h₂) (h' : AddsCopies h₂ h₃) :
    AddsCopies h₁ h₃ := by
  refine ⟨h.info.trans h'.info, h.mark.trans h'.mark, fun slot => ?_⟩
  rcases h.slots slot with hsame | ⟨hnone, hzero⟩
  · rw [hsame]
    exact h'.slots slot
  · rcases h'.slots slot with hsame' | ⟨_, hzero'⟩
    · exact .inr ⟨hsame' ▸ hnone, hzero⟩
    · rw [hnone] at hzero'
      cases hzero'

theorem info? (h : AddsCopies held reference) : held.info? = reference.info? := by
  rw [HeldAccount.info?, HeldAccount.info?, h.mark, h.info]

/-- A slot reads the same with and without a copy. -/
theorem value (h : AddsCopies held reference) (slot : Word) :
    (held.slots.get? slot).getD 0 = (reference.slots.get? slot).getD 0 := by
  rcases h.slots slot with hsame | ⟨hnone, hzero⟩
  · rw [hsame]
  · rw [hnone, hzero]
    rfl

/-- What is written over the slots of both accounts hides the copies or leaves them. -/
theorem extend_slots (h : AddsCopies held reference) (slots : SortedMap Word Word)
    (slot : Word) :
    (held.slots.extend slots).get? slot = (reference.slots.extend slots).get? slot
      ∨ (reference.slots.extend slots).get? slot = none
        ∧ (held.slots.extend slots).get? slot = some 0 := by
  rw [SortedMap.get?_extend, SortedMap.get?_extend]
  cases slots.get? slot with
  | none => exact h.slots slot
  | some value => exact .inl rfl

end AddsCopies

/-- Reading a slot adds at most a copy of it. -/
theorem addsCopies_read (held : HeldAccount) (slot : Word) :
    (held.read slot).AddsCopies held := by
  refine ⟨held.info_read slot, held.mark_read slot, fun s => ?_⟩
  by_cases hs : s = slot
  · subst hs
    rw [get?_read_self]
    split
    next hnew => exact .inr ⟨hnew.1, rfl⟩
    next => exact .inl rfl
  · exact .inl (get?_read_of_ne hs)

/-- Reading the same slot of both accounts leaves as many copies. -/
theorem AddsCopies.read {held reference : HeldAccount} (h : AddsCopies held reference)
    (slot : Word) : (held.read slot).AddsCopies (reference.read slot) := by
  have hinfo : (held.read slot).info = (reference.read slot).info := by
    rw [info_read, info_read, h.info]
  have hmark : (held.read slot).mark = (reference.read slot).mark := by
    rw [mark_read, mark_read, h.mark]
  refine ⟨hinfo, hmark, fun s => ?_⟩
  by_cases hs : s = slot
  · subst hs
    rw [get?_read_self, get?_read_self, h.mark]
    rcases h.slots s with hsame | ⟨hnone, hzero⟩
    · rw [hsame]
      exact .inl rfl
    · -- The first account has the copy already, the second gets it unless it has no slots.
      rw [hnone, hzero, if_neg fun hnew => Option.some_ne_none _ hnew.1]
      split
      next => exact .inl rfl
      next => exact .inr ⟨rfl, rfl⟩
  · rw [get?_read_of_ne hs, get?_read_of_ne hs]
    exact h.slots s

theorem AddsCopies.committed {held reference : HeldAccount} (h : AddsCopies held reference)
    (info : AccountInfo) (live : LiveAccount) :
    (held.committed info live).AddsCopies (reference.committed info live) := by
  refine ⟨rfl, ?_, fun slot => ?_⟩
  · simp only [HeldAccount.committed, h.mark]
  · simp only [HeldAccount.committed]
    split
    next => exact .inl rfl
    next => exact h.extend_slots _ slot

end HeldAccount

/-! ## Worlds -/

namespace World

/-- A world as another one, with copies of what reads as absent or as zero added. -/
structure AddsCopies (world reference : World) : Prop where
  codes : world.codes = reference.codes
  known : ∀ address, reference.accounts.contains address → world.accounts.contains address
  held : ∀ address, (world.held address).AddsCopies (reference.held address)

namespace AddsCopies

variable {world reference : World}

theorem refl (world : World) : AddsCopies world world :=
  ⟨rfl, fun _ h => h, fun _ => .refl _⟩

theorem trans {w₁ w₂ w₃ : World} (h : AddsCopies w₁ w₂) (h' : AddsCopies w₂ w₃) :
    AddsCopies w₁ w₃ :=
  ⟨h.codes.trans h'.codes, fun a hknown => h.known a (h'.known a hknown),
    fun a => (h.held a).trans (h'.held a)⟩

/-! ### What is read -/

theorem codeFor (h : AddsCopies world reference) (info : AccountInfo) :
    world.codeFor info = reference.codeFor info :=
  codeFor_congr h.codes info

theorem readsAs (h : AddsCopies world reference) : world.ReadsAs reference := by
  refine ⟨fun a => ?_, fun a => ?_, fun d => ?_, fun a s => ?_⟩
  · rw [basic_eq, basic_eq]
    exact (h.held a).info?
  · rw [info?_getD, info?_getD, (h.held a).info]
  · rw [codeOf_value, codeOf_value, h.codes]
  · rw [storage_eq, storage_eq]
    exact (h.held a).value s

theorem balance (h : AddsCopies world reference) (address : Address) :
    world.balance address = reference.balance address := by
  rw [balance_eq, balance_eq, (h.held address).info]

theorem nonce (h : AddsCopies world reference) (address : Address) :
    world.nonce address = reference.nonce address := by
  rw [nonce_eq, nonce_eq, (h.held address).info]

theorem code? (h : AddsCopies world reference) (address : Address) :
    world.code? address = reference.code? address := by
  rw [code?_eq, code?_eq, (h.held address).info, h.codeFor]

theorem slot?_getD (h : AddsCopies world reference) (address : Address) (slot : Word) :
    (world.slot? address slot).getD 0 = (reference.slot? address slot).getD 0 := by
  rw [World.slot?_getD, World.slot?_getD]
  exact (h.held address).value slot

/-- What a transaction changes shows alike against both worlds. -/
theorem diff (h : AddsCopies world reference) (changes : LiveAccounts) :
    world.diff changes = reference.diff changes := by
  unfold World.diff
  refine congrArg (changes.entries.filterMap ·) (funext fun e => ?_)
  unfold accountDiff?
  rw [h.balance, h.nonce, h.code?, h.codes]

/-! ### Reading and writing -/

theorem withHeld (h : AddsCopies world reference) (address : Address)
    {held held' : HeldAccount} (hheld : held.AddsCopies held') :
    (world.withHeld address held).AddsCopies (reference.withHeld address held') := by
  refine ⟨h.codes, fun a => ?_, fun a => ?_⟩
  · rw [contains_withHeld, contains_withHeld, decide_eq_true_iff, decide_eq_true_iff]
    exact Or.imp_right (h.known a)
  · rw [held_withHeld, held_withHeld]
    split
    next => exact hheld
    next => exact h.held a

/-- A copy in the first world alone. -/
theorem withHeld_left (h : AddsCopies world reference) (address : Address)
    {held : HeldAccount} (hheld : held.AddsCopies (reference.held address)) :
    (world.withHeld address held).AddsCopies reference := by
  refine ⟨h.codes, fun a hknown => ?_, fun a => ?_⟩
  · rw [contains_withHeld, decide_eq_true_iff]
    exact .inr (h.known a hknown)
  · rw [held_withHeld]
    split
    next ha =>
      rw [ha]
      exact hheld
    next => exact h.held a

theorem basic (h : AddsCopies world reference) (address : Address) :
    (world.basic address).2.AddsCopies (reference.basic address).2 := by
  rw [basic_eq, basic_eq]
  exact h.withHeld address (h.held address)

theorem storage (h : AddsCopies world reference) (address : Address) (slot : Word) :
    (world.storage address slot).2.AddsCopies (reference.storage address slot).2 := by
  rw [storage_eq, storage_eq]
  exact h.withHeld address ((h.held address).read slot)

theorem addCode (h : AddsCopies world reference) (digest : Digest) (code : Bytes) :
    (world.addCode digest code).AddsCopies (reference.addCode digest code) := by
  have hcodes := h.codes
  unfold World.addCode
  split
  next hknown =>
    rw [hcodes] at hknown
    rw [dif_pos hknown]
    exact h
  next hnew =>
    rw [hcodes] at hnew
    rw [dif_neg hnew]
    refine ⟨?_, h.known, h.held⟩
    simp only [hcodes]

/-- Storing the code of an account makes the same of the account in both worlds. -/
theorem storeCode (h : AddsCopies world reference) (info : AccountInfo) :
    (world.storeCode info).1 = (reference.storeCode info).1
      ∧ (world.storeCode info).2.AddsCopies (reference.storeCode info).2 := by
  unfold World.storeCode
  split
  next => exact ⟨rfl, h.addCode _ _⟩
  next => exact ⟨rfl, h⟩

theorem setBalance (h : AddsCopies world reference) (address : Address) (balance : Nat) :
    (world.setBalance address balance).AddsCopies (reference.setBalance address balance) := by
  have hheld := h.held address
  rw [setBalance_eq, setBalance_eq]
  refine h.withHeld address ⟨?_, rfl, hheld.slots⟩
  simp only [hheld.info]

theorem commitAccount (h : AddsCopies world reference) (address : Address)
    (live : LiveAccount) :
    (world.commitAccount address live).AddsCopies (reference.commitAccount address live) := by
  rw [commitAccount_eq, commitAccount_eq]
  split
  next => exact h
  next =>
    split
    next => exact h.withHeld address (.refl .missing)
    next =>
      obtain ⟨hinfo, hstored⟩ := h.storeCode live.info
      rw [hinfo]
      exact hstored.withHeld address ((hstored.held address).committed _ live)

theorem commit (h : AddsCopies world reference) (changes : LiveAccounts) :
    (world.commit changes).AddsCopies (reference.commit changes) := by
  unfold World.commit
  induction changes.entries generalizing world reference with
  | nil => exact h
  | cons e rest ih => exact ih (h.commitAccount e.1 e.2)

end AddsCopies

/-! ## One read -/

theorem addsCopies_basic (world : World) (address : Address) :
    (world.basic address).2.AddsCopies world := by
  rw [basic_eq]
  exact (AddsCopies.refl world).withHeld_left address (.refl _)

theorem addsCopies_storage (world : World) (address : Address) (slot : Word) :
    (world.storage address slot).2.AddsCopies world := by
  rw [storage_eq]
  exact (AddsCopies.refl world).withHeld_left address ((world.held address).addsCopies_read slot)

theorem readsAs_basic (world : World) (address : Address) :
    (world.basic address).2.ReadsAs world :=
  (world.addsCopies_basic address).readsAs

theorem readsAs_storage (world : World) (address : Address) (slot : Word) :
    (world.storage address slot).2.ReadsAs world :=
  (world.addsCopies_storage address slot).readsAs

/-! ## Code that is stored -/

/-- The code of the account is at hand or stored. -/
def Knows (world : World) (info : AccountInfo) : Prop :=
  info.code = none → world.codes.contains info.codeHash

/-- A world in which the code of every account is at hand or stored. -/
def Complete (world : World) : Prop :=
  ∀ address, world.Knows (world.held address).info

theorem knows_of_code {world : World} {info : AccountInfo} {code : Bytes}
    (h : info.code = some code) : world.Knows info := by
  intro hnone
  rw [h] at hnone
  cases hnone

theorem contains_emptyCodeHash (world : World) : world.codes.contains emptyCodeHash := by
  rw [SortedMap.contains, world.emptyCode]
  rfl

theorem contains_addCode {world : World} {digest : Digest} (code : Bytes) {d : Digest}
    (h : world.codes.contains d) : (world.addCode digest code).codes.contains d := by
  unfold addCode
  split
  next => exact h
  next =>
    unfold SortedMap.contains at h ⊢
    rw [SortedMap.get?_insert]
    split
    next => rfl
    next => exact h

/-- Looking up code that is not stored keeps it from being stored later, which is why the world
has to be complete for copies not to matter. -/
theorem get?_addCode_codeOf {world : World} {digest : Digest} (code : Bytes)
    (h : world.codes.get? digest = none) :
    ((world.codeOf digest).2.addCode digest code).codes.get? digest = some []
      ∧ (world.addCode digest code).codes.get? digest = some code := by
  have hlooked : (world.codeOf digest).2.codes.get? digest = some [] := by
    unfold codeOf
    split
    next found hfound =>
      rw [h] at hfound
      cases hfound
    next => rw [SortedMap.get?_insert, if_pos rfl]
  constructor
  · have hcontains : (world.codeOf digest).2.codes.contains digest := by
      rw [SortedMap.contains, hlooked]
      rfl
    rw [addCode, dif_pos hcontains]
    exact hlooked
  · have hnew : ¬world.codes.contains digest := by
      rw [SortedMap.contains, h]
      exact Bool.false_ne_true
    rw [addCode, dif_neg hnew, SortedMap.get?_insert, if_pos rfl]

theorem contains_storeCode {world : World} (info : AccountInfo) {d : Digest}
    (h : world.codes.contains d) : (world.storeCode info).2.codes.contains d := by
  unfold storeCode
  split
  next => exact contains_addCode _ h
  next => exact h

theorem contains_commitAccount {world : World} (address : Address) (live : LiveAccount)
    {d : Digest} (h : world.codes.contains d) :
    (world.commitAccount address live).codes.contains d := by
  rw [commitAccount_eq]
  split
  next => exact h
  next =>
    split
    next => exact h
    next => exact contains_storeCode live.info h

theorem accounts_addCode (world : World) (digest : Digest) (code : Bytes) :
    (world.addCode digest code).accounts = world.accounts := by
  unfold addCode
  split <;> rfl

theorem accounts_storeCode (world : World) (info : AccountInfo) :
    (world.storeCode info).2.accounts = world.accounts := by
  unfold storeCode
  split
  next => exact world.accounts_addCode _ _
  next => rfl

/-- Storing its code keeps an account known. -/
theorem Knows.storeCode {world : World} {info : AccountInfo} (h : world.Knows info) :
    (world.storeCode info).2.Knows (world.storeCode info).1 := by
  unfold World.storeCode
  split
  next hcode => exact knows_of_code hcode
  next =>
    intro hnone
    simp only
    split
    next => exact world.contains_emptyCodeHash
    next => exact h hnone

theorem AddsCopies.knows_iff {world reference : World} (h : world.AddsCopies reference)
    (info : AccountInfo) : world.Knows info ↔ reference.Knows info := by
  rw [Knows, Knows, h.codes]

namespace Complete

variable {world : World}

theorem knows_of_basic (h : world.Complete) {address : Address} {info : AccountInfo}
    (hread : (world.basic address).1 = some info) : world.Knows info := by
  rw [basic_eq] at hread
  rw [← HeldAccount.info_of_info? hread]
  exact h address

theorem of_addsCopies {more : World} (hadds : more.AddsCopies world) (h : world.Complete) :
    more.Complete := by
  intro a
  rw [(hadds.held a).info, hadds.knows_iff]
  exact h a

theorem withHeld (h : world.Complete) (address : Address) {held : HeldAccount}
    (hheld : world.Knows held.info) : (world.withHeld address held).Complete := by
  intro a
  rw [held_withHeld]
  split
  next => exact hheld
  next => exact h a

theorem storeCode (h : world.Complete) (info : AccountInfo) :
    (world.storeCode info).2.Complete := by
  intro a hnone
  rw [World.held, accounts_storeCode] at hnone ⊢
  exact contains_storeCode info (h a hnone)

theorem setBalance (h : world.Complete) (address : Address) (balance : Nat) :
    (world.setBalance address balance).Complete := by
  have hheld := h address
  rw [setBalance_eq]
  exact h.withHeld address hheld

/-- An account may be put in place whose code is at hand or stored. -/
theorem putAccount (h : world.Complete) (address : Address) {info : AccountInfo}
    (hinfo : world.Knows info) (slots : List (Word × Word)) :
    (world.putAccount address info slots).Complete :=
  (h.storeCode info).withHeld address hinfo.storeCode

theorem commitAccount (h : world.Complete) (address : Address) {live : LiveAccount}
    (hlive : world.Knows live.info) : (world.commitAccount address live).Complete := by
  rw [commitAccount_eq]
  split
  next => exact h
  next =>
    split
    next => exact h.withHeld address (knows_of_code rfl)
    next => exact (h.storeCode live.info).withHeld address hlive.storeCode

theorem commit (h : world.Complete) {changes : LiveAccounts}
    (hchanges : ∀ address live, changes.get? address = some live → world.Knows live.info) :
    (world.commit changes).Complete := by
  have hentries : ∀ e ∈ changes.entries, world.Knows e.2.info := fun e he =>
    hchanges e.1 e.2 (SortedMap.get?_eq_some_iff.mpr he)
  unfold World.commit
  generalize changes.entries = entries at hentries
  clear hchanges
  induction entries generalizing world with
  | nil => exact h
  | cons e rest ih =>
    refine ih (h.commitAccount e.1 (hentries e List.mem_cons_self)) fun later hlater hnone => ?_
    exact contains_commitAccount e.1 e.2 (hentries later (List.mem_cons_of_mem e hlater) hnone)

end Complete

theorem complete_empty : empty.Complete := fun _ => knows_of_code rfl

end World

end CreationGate
