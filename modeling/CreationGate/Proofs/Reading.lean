import CreationGate.Evm.World

/-!
# What a world holds and what it reads as

All that is read from a world, looked at or written to it is told by what it holds at an
address, where nothing known counts as a known absence (`World.held`).  Reading keeps copies,
so the world after a read is another one; `World.ReadsAs` says that two worlds cannot be told
apart by reading.
-/

namespace CreationGate

/-! ## Accounts -/

namespace HeldAccount

theorem info_of_info? {held : HeldAccount} {info : AccountInfo} (h : held.info? = some info) :
    held.info = info := by
  unfold info? at h
  split at h
  next => cases h
  next => exact Option.some.inj h

/-- The account after a slot of it was read. -/
def read (held : HeldAccount) (slot : Word) : HeldAccount :=
  if held.slots.get? slot = none ∧ held.mark ≠ .cleared ∧ held.mark ≠ .absent then
    { held with slots := held.slots.insert slot 0 }
  else held

theorem info_read (held : HeldAccount) (slot : Word) : (held.read slot).info = held.info := by
  unfold read
  split <;> rfl

theorem mark_read (held : HeldAccount) (slot : Word) : (held.read slot).mark = held.mark := by
  unfold read
  split <;> rfl

theorem get?_read_of_ne {held : HeldAccount} {slot s : Word} (h : s ≠ slot) :
    (held.read slot).slots.get? s = held.slots.get? s := by
  unfold read
  split
  next => rw [SortedMap.get?_insert, if_neg h]
  next => rfl

theorem get?_read_self (held : HeldAccount) (slot : Word) :
    (held.read slot).slots.get? slot
      = if held.slots.get? slot = none ∧ held.mark ≠ .cleared ∧ held.mark ≠ .absent then some 0
        else held.slots.get? slot := by
  unfold read
  split
  next => rw [SortedMap.get?_insert, if_pos rfl]
  next => rfl

/-- The account after a transaction that touched it and did not destroy it. -/
def committed (held : HeldAccount) (info : AccountInfo) (live : LiveAccount) : HeldAccount where
  info := info
  mark :=
    if live.created then .cleared
    else if held.mark = .cleared then .cleared
    else .touched
  slots := (if live.created then ∅ else held.slots).extend
    (live.slots.mapValues fun _ slot => slot.present)

/-- An account that was written back is present. -/
theorem mark_committed_ne (held : HeldAccount) (info : AccountInfo) (live : LiveAccount) :
    (held.committed info live).mark ≠ .absent := by
  unfold committed
  simp only
  split
  next => exact AccountMark.noConfusion
  next =>
    split
    next => exact AccountMark.noConfusion
    next => exact AccountMark.noConfusion

end HeldAccount

/-- An account that is put in place is present. -/
theorem AccountMark.present_ne (mark : AccountMark) :
    (if mark = .absent then .loaded else mark) ≠ .absent := by
  split
  next => exact AccountMark.noConfusion
  next hpresent => exact hpresent

namespace World

/-! ## What is held -/

/-- What is held at an address, where nothing known counts as a known absence. -/
def held (world : World) (address : Address) : HeldAccount :=
  (world.accounts.get? address).getD .missing

/-- The world with another account at an address. -/
def withHeld (world : World) (address : Address) (held : HeldAccount) : World :=
  { world with accounts := world.accounts.insert address held }

section Held

variable (world : World) (address : Address)

theorem held_withHeld (held : HeldAccount) (a : Address) :
    (world.withHeld address held).held a = if a = address then held else world.held a := by
  unfold World.held withHeld
  rw [SortedMap.get?_insert]
  split <;> rfl

theorem contains_withHeld (held : HeldAccount) (a : Address) :
    (world.withHeld address held).accounts.contains a
      = (a = address ∨ world.accounts.contains a : Bool) := by
  unfold withHeld SortedMap.contains
  rw [SortedMap.get?_insert]
  split
  next ha => simp [ha]
  next ha => simp [ha]

theorem withHeld_self {held : HeldAccount} (h : world.accounts.get? address = some held) :
    world.withHeld address held = world := by
  have haccounts : world.accounts.insert address held = world.accounts := by
    refine SortedMap.ext_get? fun a => ?_
    rw [SortedMap.get?_insert]
    split
    next ha => rw [ha, h]
    next => rfl
  unfold withHeld
  rw [haccounts]

theorem withHeld_withHeld (held later : HeldAccount) :
    (world.withHeld address held).withHeld address later = world.withHeld address later := by
  have haccounts : (world.accounts.insert address held).insert address later
      = world.accounts.insert address later := by
    refine SortedMap.ext_get? fun a => ?_
    rw [SortedMap.get?_insert, SortedMap.get?_insert, SortedMap.get?_insert]
    split <;> rfl
  unfold withHeld
  simp only [haccounts]

theorem hold_eq :
    world.hold address
      = (world.held address, world.withHeld address (world.held address)) := by
  unfold hold World.held
  cases h : world.accounts.get? address with
  | some held =>
    simp only [Option.getD_some]
    rw [withHeld_self world address h]
  | none => rfl

theorem basic_eq :
    world.basic address
      = ((world.held address).info?, world.withHeld address (world.held address)) := by
  unfold basic
  rw [hold_eq]

theorem storage_eq (slot : Word) :
    world.storage address slot
      = (((world.held address).slots.get? slot).getD 0,
        world.withHeld address ((world.held address).read slot)) := by
  unfold storage World.held HeldAccount.read
  cases h : world.accounts.get? address with
  | none => rfl
  | some held =>
    have hself := world.withHeld_self address h
    simp only [Option.getD_some]
    cases hslot : held.slots.get? slot with
    | some value =>
      rw [if_neg fun hnew => Option.some_ne_none _ hnew.1, hself]
      rfl
    | none =>
      cases hmark : held.mark with
      | cleared =>
        rw [if_neg fun hnew => hnew.2.1 rfl, hself]
        rfl
      | absent =>
        rw [if_neg fun hnew => hnew.2.2 rfl, hself]
        rfl
      | loaded =>
        rw [if_pos ⟨rfl, by decide, by decide⟩]
        rfl
      | touched =>
        rw [if_pos ⟨rfl, by decide, by decide⟩]
        rfl

/-- A known absence and nothing known are written over alike. -/
theorem commitAccount_eq (live : LiveAccount) :
    world.commitAccount address live
      = if !live.touched then world
        else if live.destroyed then world.withHeld address .missing
        else (world.storeCode live.info).2.withHeld address
          (((world.storeCode live.info).2.held address).committed
            (world.storeCode live.info).1 live) := by
  unfold commitAccount World.held
  split
  next => rfl
  next =>
    split
    next => rfl
    next =>
      rcases world.storeCode live.info with ⟨info, stored⟩
      simp only
      cases stored.accounts.get? address <;> rfl

theorem setBalance_eq (balance : Nat) :
    world.setBalance address balance
      = world.withHeld address { world.held address with
          info := { (world.held address).info with balance := balance }, mark := .loaded } := by
  unfold setBalance
  rw [hold_eq]
  exact world.withHeld_withHeld address _ _

theorem info?_getD : (world.info? address).getD {} = (world.held address).info := by
  unfold info? World.held
  cases world.accounts.get? address <;> rfl

theorem balance_eq : world.balance address = (world.held address).info.balance := by
  rw [← info?_getD, balance]
  cases world.info? address <;> rfl

theorem nonce_eq : world.nonce address = (world.held address).info.nonce := by
  rw [← info?_getD, nonce]
  cases world.info? address <;> rfl

theorem slot?_getD (slot : Word) :
    (world.slot? address slot).getD 0 = ((world.held address).slots.get? slot).getD 0 := by
  unfold slot? World.held
  cases world.accounts.get? address <;> rfl

end Held

/-! ## Code -/

theorem codeOf_value (world : World) (digest : Digest) :
    (world.codeOf digest).1 = (world.codes.get? digest).getD [] := by
  unfold codeOf
  split
  next code h => rw [h]; rfl
  next h => rw [h]; rfl

/-- Code that is stored is looked up without a trace. -/
theorem codeOf_eq (world : World) {digest : Digest} (h : world.codes.contains digest) :
    world.codeOf digest = ((world.codes.get? digest).getD [], world) := by
  unfold codeOf
  split
  next code hcode => rw [hcode]; rfl
  next hnone =>
    rw [SortedMap.contains, hnone] at h
    cases h

/-- The code of an account: at hand, or found by its digest. -/
def codeFor (world : World) (info : AccountInfo) : Bytes :=
  info.code.getD (world.codeOf info.codeHash).1

theorem codeFor_congr {w v : World} (h : w.codes = v.codes) (info : AccountInfo) :
    w.codeFor info = v.codeFor info := by
  rw [codeFor, codeFor, codeOf_value, codeOf_value, h]

/-- The code at an address is that of the account held there, if it is not empty. -/
theorem code?_eq (world : World) (address : Address) :
    world.code? address
      = if world.codeFor (world.held address).info = [] then none
        else some (world.codeFor (world.held address).info) := by
  unfold code? codeFor
  rw [codeOf_value, ← info?_getD]
  cases hinfo : world.info? address with
  | none => rfl
  | some info =>
    cases hcode : info.code with
    | some code => cases code <;> simp [hcode]
    | none =>
      cases hstored : world.codes.get? info.codeHash with
      | none => simp [hcode, hstored]
      | some code => cases code <;> simp [hcode, hstored]

theorem code?_eq_none_iff {world : World} {address : Address} :
    world.code? address = none ↔ world.codeFor (world.held address).info = [] := by
  rw [code?_eq]
  split
  next hempty => exact iff_of_true rfl hempty
  next hcode => exact iff_of_false (Option.some_ne_none _) hcode

/-- In a world without code, no account that is read has code. -/
theorem codeFor_of_basic {world : World} {address : Address} {info : AccountInfo}
    (hcode : world.code? address = none) (h : (world.basic address).1 = some info) :
    world.codeFor info = [] := by
  rw [basic_eq] at h
  rw [← HeldAccount.info_of_info? h]
  exact code?_eq_none_iff.mp hcode

/-! ## Reading alike -/

/-- A world that reads as another one. -/
structure ReadsAs (world reference : World) : Prop where
  basic : ∀ address, (world.basic address).1 = (reference.basic address).1
  /-- The copies read alike too, where an address without one counts as empty. -/
  copy : ∀ address, (world.info? address).getD {} = (reference.info? address).getD {}
  codeOf : ∀ digest, (world.codeOf digest).1 = (reference.codeOf digest).1
  storage : ∀ address slot,
    (world.storage address slot).1 = (reference.storage address slot).1

namespace ReadsAs

theorem refl (world : World) : ReadsAs world world :=
  ⟨fun _ => rfl, fun _ => rfl, fun _ => rfl, fun _ _ => rfl⟩

theorem symm {w₁ w₂ : World} (h : ReadsAs w₁ w₂) : ReadsAs w₂ w₁ :=
  ⟨fun a => (h.basic a).symm, fun a => (h.copy a).symm, fun d => (h.codeOf d).symm,
    fun a s => (h.storage a s).symm⟩

theorem trans {w₁ w₂ w₃ : World} (h₁ : ReadsAs w₁ w₂) (h₂ : ReadsAs w₂ w₃) : ReadsAs w₁ w₃ :=
  ⟨fun a => (h₁.basic a).trans (h₂.basic a), fun a => (h₁.copy a).trans (h₂.copy a),
    fun d => (h₁.codeOf d).trans (h₂.codeOf d),
    fun a s => (h₁.storage a s).trans (h₂.storage a s)⟩

theorem codeFor {world reference : World} (h : ReadsAs world reference) (info : AccountInfo) :
    world.codeFor info = reference.codeFor info := by
  unfold World.codeFor
  rw [h.codeOf]

theorem code?_eq_none_iff {world reference : World} (h : ReadsAs world reference)
    {address : Address} : world.code? address = none ↔ reference.code? address = none := by
  rw [World.code?_eq_none_iff, World.code?_eq_none_iff, ← info?_getD, ← info?_getD, h.copy,
    h.codeFor]

end ReadsAs

/-- Code that was never stored reads as empty before and after it was looked up. -/
theorem readsAs_codeOf (world : World) (digest : Digest) :
    ReadsAs (world.codeOf digest).2 world := by
  unfold codeOf
  split
  next => exact .refl world
  next h =>
    refine ⟨fun a => ?_, fun _ => rfl, fun d => ?_, fun a s => ?_⟩
    · rw [basic_eq, basic_eq]
      rfl
    · rw [codeOf_value, codeOf_value, SortedMap.get?_insert]
      split
      next hd => rw [hd, h]; rfl
      next => rfl
    · rw [storage_eq, storage_eq]
      rfl

end World

end CreationGate
