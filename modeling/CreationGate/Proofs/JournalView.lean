import CreationGate.Proofs.Atomicity

/-!
# What a journal says of an address

A journal has an account at each address: the one that it has loaded, or else the one that it
would load from its world (`Journal.live`).  Loading changes none of them, and each operation
changes the account at one address in a way that is told by one equation.  Undoing a frame puts
every account back, apart from slots that stay read.
-/

namespace CreationGate

/-- The account that is loaded where a world reads as this. -/
def LiveAccount.loaded : Option AccountInfo → LiveAccount
  | some info => { info := info }
  | none => { missing := true }

theorem LiveAccount.untouched_loaded (info? : Option AccountInfo) :
    (loaded info?).touched = false := by
  cases info? <;> rfl

namespace Journal

/-- The account at an address as a journal has it, loaded or not. -/
def live (journal : Journal) (address : Address) : LiveAccount := (journal.load address).1

section View

variable {journal : Journal} {address : Address}

theorem live_eq (journal : Journal) (address : Address) :
    journal.live address = (journal.accounts.get? address).getD
      (.loaded (journal.world.basic address).1) := by
  unfold Journal.live load
  cases journal.accounts.get? address with
  | some live => rfl
  | none =>
    simp only [Option.getD_none]
    cases (journal.world.basic address).1 <;> rfl

/-- Before anything is loaded the accounts are those of the world. -/
theorem live_start (world : World) (address : Address) :
    (⟨∅, world⟩ : Journal).live address = .loaded (world.basic address).1 := by
  rw [live_eq, SortedMap.get?_empty, Option.getD_none]

theorem live_of_get? {live : LiveAccount} (h : journal.accounts.get? address = some live) :
    journal.live address = live := by
  rw [live_eq, h, Option.getD_some]

/-- What is loaded or put is there, and nothing else. -/
theorem get?_load (journal : Journal) (address a : Address) :
    (journal.load address).2.accounts.get? a
      = if a = address then some (journal.live address) else journal.accounts.get? a := by
  unfold Journal.live load
  cases hget : journal.accounts.get? address with
  | some live =>
    simp only
    split
    next ha => rw [ha, hget]
    next => rfl
  | none => rw [SortedMap.get?_insert]

/-- The account at an address depends on what is loaded there and on how the world reads. -/
theorem live_congr {j k : Journal} (haccounts : j.accounts.get? address = k.accounts.get? address)
    (hworld : j.world.ReadsAs k.world) : j.live address = k.live address := by
  rw [live_eq, live_eq, haccounts, hworld.basic]

theorem live_withWorld {world : World} (h : world.ReadsAs journal.world) (address : Address) :
    ({ journal with world := world } : Journal).live address = journal.live address :=
  live_congr rfl h

/-- An account that was touched was loaded. -/
theorem get?_of_touched (h : (journal.live address).touched = true) :
    journal.accounts.get? address = some (journal.live address) := by
  rw [live_eq] at h ⊢
  cases hget : journal.accounts.get? address with
  | some live => rfl
  | none =>
    rw [hget, Option.getD_none, LiveAccount.untouched_loaded] at h
    cases h

/-! ## One account at a time -/

theorem live_load (journal : Journal) (address a : Address) :
    (journal.load address).2.live a = journal.live a := by
  by_cases ha : a = address
  · subst ha
    refine live_of_get? ?_
    rw [get?_load, if_pos rfl]
  · refine live_congr ?_ (journal.readsAs_load address)
    rw [get?_load, if_neg ha]

theorem live_put (journal : Journal) (address : Address) (live : LiveAccount) (a : Address) :
    (journal.put address live).live a = if a = address then live else journal.live a := by
  have hget : (journal.put address live).accounts.get? a
      = if a = address then some live else journal.accounts.get? a := SortedMap.get?_insert _ _ _ _
  split
  next ha =>
    rw [if_pos ha] at hget
    exact live_of_get? hget
  next ha =>
    rw [if_neg ha] at hget
    exact live_congr hget (.refl journal.world)

theorem live_update (journal : Journal) (address : Address) (f : LiveAccount → LiveAccount)
    (a : Address) :
    (journal.update address f).live a
      = if a = address then f (journal.live address) else journal.live a := by
  have hupdate : journal.update address f
      = (journal.load address).2.put address (f (journal.live address)) := rfl
  rw [hupdate, live_put, live_load]

theorem readsAs_update (journal : Journal) (address : Address) (f : LiveAccount → LiveAccount) :
    (journal.update address f).world.ReadsAs journal.world :=
  journal.readsAs_load address

end View

/-! ## Funds -/

end Journal

/-- An account as another one, apart from its balance; it may have been touched since. -/
structure LiveAccount.Funded (live before : LiveAccount) : Prop where
  eq : live = { before with
    touched := live.touched
    info := { before.info with balance := live.info.balance } }
  touched : before.touched = true → live.touched = true

namespace LiveAccount.Funded

theorem refl (live : LiveAccount) : Funded live live := ⟨rfl, id⟩

theorem trans {l₁ l₂ l₃ : LiveAccount} (h : Funded l₁ l₂) (h' : Funded l₂ l₃) :
    Funded l₁ l₃ := by
  refine ⟨?_, fun htouched => h.touched (h'.touched htouched)⟩
  rw [h.eq, h'.eq]

theorem nonce_eq {live before : LiveAccount} (h : Funded live before) :
    live.info.nonce = before.info.nonce := by rw [h.eq]

theorem code_eq {live before : LiveAccount} (h : Funded live before) :
    live.info.code = before.info.code := by rw [h.eq]

theorem slots_eq {live before : LiveAccount} (h : Funded live before) :
    live.slots = before.slots := by rw [h.eq]

theorem destroyed_eq {live before : LiveAccount} (h : Funded live before) :
    live.destroyed = before.destroyed := by rw [h.eq]

end LiveAccount.Funded

namespace Journal

theorem funded_update (journal : Journal) (address : Address) {f : LiveAccount → LiveAccount}
    (hf : ∀ live : LiveAccount, (f live).Funded live) (a : Address) :
    ((journal.update address f).live a).Funded (journal.live a) := by
  rw [live_update]
  split
  next ha =>
    rw [ha]
    exact hf _
  next => exact .refl _

theorem funded_touch (journal : Journal) (address a : Address) :
    ((journal.touch address).live a).Funded (journal.live a) :=
  journal.funded_update address (fun _ => ⟨rfl, fun _ => rfl⟩) a

theorem funded_credit (journal : Journal) (address : Address) (amount : Nat) (a : Address) :
    ((journal.credit address amount).live a).Funded (journal.live a) :=
  journal.funded_update address (fun _ => ⟨rfl, fun _ => rfl⟩) a

/-- A transfer moves balance and nothing else; one that succeeds has touched the recipient,
unless the caller pays itself. -/
theorem funded_transfer (journal : Journal) (caller target : Address) (value : Nat) :
    let moved := journal.transfer caller target value
    moved.2.world.ReadsAs journal.world
      ∧ (∀ a, (moved.2.live a).Funded (journal.live a))
      ∧ (moved.1 = none → caller ≠ target → (moved.2.live target).touched = true) := by
  have hreads := ((journal.load caller).2.readsAs_load target).trans (journal.readsAs_load caller)
  have hloaded : ∀ a, (((journal.load caller).2.load target).2.live a).Funded (journal.live a) := by
    intro a
    rw [live_load, live_load]
    exact .refl _
  unfold transfer
  simp only
  generalize ((journal.load caller).2.load target).2 = loaded at hreads hloaded
  split
  next => exact ⟨hreads, hloaded, fun h => by cases h⟩
  next =>
    split
    next hself => exact ⟨hreads, hloaded, fun _ hne => absurd hself hne⟩
    next =>
      split
      next =>
        refine ⟨(loaded.readsAs_update target _).trans hreads, fun a => ?_, fun _ _ => ?_⟩
        · exact (loaded.funded_touch target a).trans (hloaded a)
        · rw [touch, live_update, if_pos rfl]
      next =>
        generalize hpays : loaded.update caller _ = paid
        have hpaid : ∀ a, (paid.live a).Funded (journal.live a) := by
          intro a
          subst hpays
          exact (loaded.funded_update caller (fun _ => ⟨rfl, fun _ => rfl⟩) a).trans (hloaded a)
        have hpaidReads : paid.world.ReadsAs journal.world := by
          subst hpays
          exact (loaded.readsAs_update caller _).trans hreads
        split
        next =>
          refine ⟨(paid.readsAs_update target _).trans hpaidReads, fun a => ?_, fun _ _ => ?_⟩
          · exact (paid.funded_credit target value a).trans (hpaid a)
          · rw [credit, live_update, if_pos rfl]
        next => exact ⟨hpaidReads, hpaid, fun h => by cases h⟩

/-! ## Code -/

/-- The code that is loaded is that of the account. -/
theorem loadCode_code (journal : Journal) (address : Address) :
    (journal.loadCode address).2.1 = journal.world.codeFor (journal.live address).info := by
  have hreads := journal.readsAs_load address
  unfold loadCode Journal.live World.codeFor
  cases hload : journal.load address with
  | mk live next =>
    rw [hload] at hreads
    cases hcode : live.info.code with
    | some code => simp only [hcode, Option.getD_some]
    | none =>
      simp only [hcode, Option.getD_none]
      split
      next hempty => rw [hempty, World.codeOf_value, journal.world.emptyCode, Option.getD_some]
      next => exact hreads.codeOf _

/-- Loading the code of an account may put it at hand, and changes nothing that is read. -/
theorem live_loadCode (journal : Journal) (address : Address) :
    ∃ code,
      journal.world.codeFor { (journal.live address).info with code := code }
          = journal.world.codeFor (journal.live address).info
        ∧ (journal.loadCode address).1
          = { journal.live address with
              info := { (journal.live address).info with code := code } }
        ∧ ∀ a, (journal.loadCode address).2.2.live a
          = if a = address then (journal.loadCode address).1 else journal.live a := by
  have hlive := journal.live_load address
  have hreads := journal.readsAs_load address
  have hself : journal.live address = (journal.load address).1 := rfl
  have hkept : ∀ a, journal.live a
      = if a = address then journal.live address else journal.live a := by
    intro a
    split
    next ha => rw [ha]
    next => rfl
  unfold loadCode
  cases hload : journal.load address with
  | mk live next =>
    rw [hload] at hlive hreads hself
    rw [hself] at hkept ⊢
    cases hcode : live.info.code with
    | some code =>
      simp only [hcode]
      refine ⟨some code, ?_, ?_, fun a => (hlive a).trans (hkept a)⟩
      · rw [← hcode]
      · rw [← hcode]
    | none =>
      simp only [hcode]
      split
      next =>
        refine ⟨none, ?_, ?_, fun a => (hlive a).trans (hkept a)⟩
        · rw [← hcode]
        · rw [← hcode]
      next =>
        refine ⟨some (next.world.codeOf live.info.codeHash).1, ?_, rfl, fun a => ?_⟩
        · simp only [World.codeFor, hcode, Option.getD_some, Option.getD_none]
          exact hreads.codeOf _
        · rw [live_put, live_withWorld (World.readsAs_codeOf next.world _), hlive]

/-! ## Slots -/

/-- A slot is put among those of its account, in a journal that says the same of every
address. -/
theorem loadSlot_eq (journal : Journal) (address : Address) (slot : Word) :
    ∃ (s : Slot) (warm : Bool) (k : Journal), k.world.ReadsAs journal.world
      ∧ (∀ a, k.live a = journal.live a)
      ∧ journal.loadSlot address slot
        = (s, warm, k.put address { journal.live address with
            slots := (journal.live address).slots.insert slot { s with warm := true } }) := by
  have hreads := journal.readsAs_load address
  have hlive := journal.live_load address
  unfold loadSlot
  have hself : journal.live address = (journal.load address).1 := rfl
  rw [hself]
  cases hload : journal.load address with
  | mk live next =>
    rw [hload] at hreads hlive
    simp only
    cases hslot : live.slots.get? slot with
    | some s => exact ⟨s, s.warm, next, hreads, hlive, rfl⟩
    | none =>
      cases hcreated : live.created with
      | true => exact ⟨_, _, next, hreads, hlive, rfl⟩
      | false =>
        have hstorage := World.readsAs_storage next.world address slot
        exact ⟨_, _, _, hstorage.trans hreads,
          fun a => (live_withWorld hstorage a).trans (hlive a), rfl⟩

theorem readsAs_loadSlot (journal : Journal) (address : Address) (slot : Word) :
    (journal.loadSlot address slot).2.2.world.ReadsAs journal.world := by
  obtain ⟨s, warm, k, hreads, _, heq⟩ := journal.loadSlot_eq address slot
  rw [heq]
  exact hreads

theorem live_loadSlot (journal : Journal) (address : Address) (slot : Word) (a : Address) :
    ∃ slots, (journal.loadSlot address slot).2.2.live a
      = { journal.live a with slots := slots } := by
  obtain ⟨s, warm, k, _, hview, heq⟩ := journal.loadSlot_eq address slot
  rw [heq, live_put]
  split
  next ha =>
    rw [ha]
    exact ⟨_, rfl⟩
  next =>
    rw [hview]
    exact ⟨_, rfl⟩

/-- A slot that is loaded and then written has the value that was written. -/
theorem live_writeSlot (journal : Journal) (address : Address) (slot value : Word) :
    ∃ (slots : SortedMap Word Slot) (s : Slot), slots.get? slot = some s ∧ s.present = value
      ∧ ∀ a, ((journal.loadSlot address slot).2.2.writeSlot address slot value).live a
        = if a = address then { journal.live address with slots := slots }
          else journal.live a := by
  obtain ⟨s, warm, k, _, hview, heq⟩ := journal.loadSlot_eq address slot
  refine ⟨((journal.live address).slots.insert slot { s with warm := true }).modify slot
    fun s => { s with present := value }, ⟨s.initial, value, true⟩, ?_, rfl, fun a => ?_⟩
  · rw [SortedMap.get?_modify, if_pos rfl, SortedMap.get?_insert, if_pos rfl]
    rfl
  · rw [heq]
    by_cases ha : a = address
    · subst ha
      rw [if_pos rfl]
      refine live_of_get? ?_
      rw [writeSlot, SortedMap.get?_modify, if_pos rfl, put, SortedMap.get?_insert, if_pos rfl]
      rfl
    · rw [if_neg ha, ← hview a]
      refine live_congr ?_ (.refl k.world)
      rw [writeSlot, SortedMap.get?_modify, if_neg ha, put, SortedMap.get?_insert, if_neg ha]

/-! ## Undone frames -/

theorem readsAs_keepRead (journal : Journal) (address : Address) (undone : LiveAccount) :
    (journal.keepRead address undone).world.ReadsAs journal.world := by
  unfold keepRead
  split
  next => exact .refl journal.world
  next => exact journal.readsAs_update address _

/-- Only slots of an account are kept of an undone frame. -/
theorem live_keepRead (journal : Journal) (address : Address) (undone : LiveAccount)
    (a : Address) :
    ∃ slots, (journal.keepRead address undone).live a
      = { journal.live a with slots := slots } := by
  unfold keepRead
  split
  next => exact ⟨_, rfl⟩
  next =>
    rw [live_update]
    split
    next ha =>
      rw [ha]
      exact ⟨_, rfl⟩
    next => exact ⟨_, rfl⟩

/-- By induction on the accounts of the undone frame. -/
theorem restore_view (journal earlier : Journal) :
    (journal.restore earlier).world.ReadsAs journal.world
      ∧ ∀ a, ∃ slots, (journal.restore earlier).live a
        = { ({ journal with accounts := earlier.accounts } : Journal).live a with
            slots := slots } := by
  have hfold : ∀ (entries : List (Address × LiveAccount)) (kept : Journal),
      (entries.foldl (fun kept e => kept.keepRead e.1 e.2) kept).world.ReadsAs kept.world
        ∧ ∀ a, ∃ slots, (entries.foldl (fun kept e => kept.keepRead e.1 e.2) kept).live a
          = { kept.live a with slots := slots } := by
    intro entries
    induction entries with
    | nil => exact fun kept => ⟨.refl kept.world, fun a => ⟨_, rfl⟩⟩
    | cons e entries ih =>
      intro kept
      obtain ⟨hreads, hview⟩ := ih (kept.keepRead e.1 e.2)
      refine ⟨hreads.trans (kept.readsAs_keepRead e.1 e.2), fun a => ?_⟩
      obtain ⟨slots, hslots⟩ := hview a
      obtain ⟨slots', hslots'⟩ := kept.live_keepRead e.1 e.2 a
      rw [List.foldl_cons, hslots, hslots']
      exact ⟨slots, rfl⟩
  exact hfold journal.accounts.entries _

end Journal

end CreationGate
