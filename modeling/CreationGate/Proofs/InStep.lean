import CreationGate.Evm.Executor
import CreationGate.Proofs.Copies

/-!
# Running over a world with copies

A transaction is run over two worlds, the first of which only adds copies to the second.  The
two runs stay in step (`Journal.InStep`): they load and write the same accounts, take the same
branches and find the same results, and the worlds they leave differ in copies alone.  Neither
adds more than copies to the world that it started from.
-/

namespace CreationGate

/-! ## Journals -/

/-- Two journals with the same accounts, over worlds that differ in copies alone.  Both add
nothing but copies to a complete world, in which the code of each account is known. -/
structure Journal.InStep (base : World) (j k : Journal) : Prop where
  accounts : j.accounts = k.accounts
  adds : j.world.AddsCopies k.world
  grown : k.world.AddsCopies base
  complete : base.Complete
  knows : ∀ address live, k.accounts.get? address = some live → base.Knows live.info

namespace Journal.InStep

variable {base : World} {j k : Journal}

theorem start {world reference : World} (hadds : world.AddsCopies reference)
    (hgrown : reference.AddsCopies base) (hcomplete : base.Complete) :
    InStep base ⟨∅, world⟩ ⟨∅, reference⟩ :=
  ⟨rfl, hadds, hgrown, hcomplete, fun _ _ h => by cases h⟩

/-- Both worlds may get further copies, as long as they stay in step. -/
theorem withWorld (h : InStep base j k) {world reference : World}
    (hadds : world.AddsCopies reference) (hgrown : reference.AddsCopies base) :
    InStep base { j with world := world } { k with world := reference } :=
  ⟨h.accounts, hadds, hgrown, h.complete, h.knows⟩

theorem put (h : InStep base j k) (address : Address) (live : LiveAccount)
    (hlive : base.Knows live.info) : InStep base (j.put address live) (k.put address live) := by
  refine ⟨?_, h.adds, h.grown, h.complete, fun a l hget => ?_⟩
  · rw [Journal.put, Journal.put, h.accounts]
  · rw [Journal.put, SortedMap.get?_insert] at hget
    split at hget
    next =>
      cases hget
      exact hlive
    next => exact h.knows a l hget

theorem load (h : InStep base j k) (address : Address) :
    ∃ live j' k', j.load address = (live, j') ∧ k.load address = (live, k')
      ∧ base.Knows live.info ∧ InStep base j' k' := by
  have hsame : j.accounts.get? address = k.accounts.get? address := by rw [h.accounts]
  unfold Journal.load
  rw [hsame]
  cases hget : k.accounts.get? address with
  | some live => exact ⟨live, j, k, rfl, rfl, h.knows address live hget, h⟩
  | none =>
    have hread := h.adds.readsAs.basic address
    have hbase := h.grown.readsAs.basic address
    have hadds := h.adds.basic address
    have hgrown := (World.addsCopies_basic k.world address).trans h.grown
    have hnext := h.withWorld hadds hgrown
    simp only
    rw [hread]
    cases hinfo : (k.world.basic address).1 with
    | none =>
      have hlive : base.Knows ({ missing := true } : LiveAccount).info := World.knows_of_code rfl
      exact ⟨_, _, _, rfl, rfl, hlive, hnext.put address _ hlive⟩
    | some info =>
      have hlive : base.Knows ({ info := info } : LiveAccount).info :=
        h.complete.knows_of_basic (hbase.symm.trans hinfo)
      exact ⟨_, _, _, rfl, rfl, hlive, hnext.put address _ hlive⟩

theorem update (h : InStep base j k) (address : Address) {f : LiveAccount → LiveAccount}
    (hf : ∀ live, base.Knows live.info → base.Knows (f live).info) :
    InStep base (j.update address f) (k.update address f) := by
  obtain ⟨live, j', k', hj, hk, hlive, hnext⟩ := h.load address
  unfold Journal.update
  rw [hj, hk]
  exact hnext.put address (f live) (hf live hlive)

/-- Code is found without a trace: the code of each account is stored. -/
theorem loadCode (h : InStep base j k) (address : Address) :
    ∃ live code j' k', j.loadCode address = (live, code, j')
      ∧ k.loadCode address = (live, code, k') ∧ base.Knows live.info ∧ InStep base j' k' := by
  obtain ⟨live, j', k', hj, hk, hlive, hnext⟩ := h.load address
  unfold Journal.loadCode
  rw [hj, hk]
  cases hcode : live.info.code with
  | some code =>
    simp only [hcode]
    exact ⟨live, code, j', k', rfl, rfl, hlive, hnext⟩
  | none =>
    simp only [hcode]
    split
    next => exact ⟨live, [], j', k', rfl, rfl, hlive, hnext⟩
    next =>
      have hcodes : j'.world.codes = k'.world.codes := hnext.adds.codes
      have hstored : k'.world.codes.contains live.info.codeHash := by
        rw [hnext.grown.codes]
        exact hlive hcode
      rw [World.codeOf_eq k'.world hstored, World.codeOf_eq j'.world (hcodes ▸ hstored), hcodes]
      have hloaded := hnext.put address
        { live with info := { live.info with
            code := some ((k'.world.codes.get? live.info.codeHash).getD []) } }
        (World.knows_of_code rfl)
      exact ⟨_, _, _, _, rfl, rfl, World.knows_of_code rfl, hloaded⟩

theorem loadSlot (h : InStep base j k) (address : Address) (slot : Word) :
    ∃ s warm j' k', j.loadSlot address slot = (s, warm, j')
      ∧ k.loadSlot address slot = (s, warm, k') ∧ InStep base j' k' := by
  obtain ⟨live, j', k', hj, hk, hlive, hnext⟩ := h.load address
  unfold Journal.loadSlot
  rw [hj, hk]
  have hslots : ∀ s : Slot,
      base.Knows { live with slots := live.slots.insert slot s }.info := fun _ => hlive
  cases hslot : live.slots.get? slot with
  | some s =>
    simp only [hslot]
    exact ⟨s, s.warm, _, _, rfl, rfl, hnext.put address _ (hslots _)⟩
  | none =>
    cases hcreated : live.created with
    | true =>
      simp only [hslot, hcreated, if_true]
      exact ⟨_, _, _, _, rfl, rfl, hnext.put address _ (hslots ⟨0, 0, true⟩)⟩
    | false =>
      have hread := hnext.adds.readsAs.storage address slot
      have hadds := hnext.adds.storage address slot
      have hgrown := (World.addsCopies_storage k'.world address slot).trans hnext.grown
      simp only [hslot, hcreated, Bool.false_eq_true, if_false, hread]
      generalize (k'.world.storage address slot).1 = value
      exact ⟨_, _, _, _, rfl, rfl,
        (hnext.withWorld hadds hgrown).put address _ (hslots ⟨value, value, true⟩)⟩

theorem writeSlot (h : InStep base j k) (address : Address) (slot value : Word) :
    InStep base (j.writeSlot address slot value) (k.writeSlot address slot value) := by
  refine ⟨?_, h.adds, h.grown, h.complete, fun a l hget => ?_⟩
  · rw [Journal.writeSlot, Journal.writeSlot, h.accounts]
  · rw [Journal.writeSlot, SortedMap.get?_modify] at hget
    split at hget
    next =>
      obtain ⟨live, hlive, rfl⟩ := Option.map_eq_some_iff.mp hget
      exact h.knows a live hlive
    next => exact h.knows a l hget

/-- Whatever keeps two journals in step does so any number of times. -/
theorem foldl {α : Type} {f : Journal → α → Journal}
    (hf : ∀ {j k : Journal} (a : α), InStep base j k → InStep base (f j a) (f k a))
    (h : InStep base j k) (items : List α) : InStep base (items.foldl f j) (items.foldl f k) := by
  induction items generalizing j k with
  | nil => exact h
  | cons a rest ih => exact ih (hf a h)

theorem announce (h : InStep base j k) (item : Address × List Word) :
    InStep base (j.announce item) (k.announce item) := by
  obtain ⟨live, j', k', hj, hk, _, hnext⟩ := h.load item.1
  unfold Journal.announce
  rw [hj, hk]
  refine hnext.foldl (fun slot h => ?_) item.2
  obtain ⟨s, warm, j', k', hj, hk, hread⟩ := h.loadSlot item.1 slot
  rw [hj, hk]
  exact hread

theorem credit (h : InStep base j k) (address : Address) (amount : Nat) :
    InStep base (j.credit address amount) (k.credit address amount) :=
  h.update address fun _ hlive => hlive

theorem touch (h : InStep base j k) (address : Address) :
    InStep base (j.touch address) (k.touch address) :=
  h.update address fun _ hlive => hlive

theorem keepRead (h : InStep base j k) (address : Address) (undone : LiveAccount) :
    InStep base (j.keepRead address undone) (k.keepRead address undone) := by
  unfold Journal.keepRead
  split
  next => exact h
  next => exact h.update address fun _ hlive => hlive

/-- Undoing a frame in both runs goes back to accounts that were the same. -/
theorem restore (h : InStep base j k) {j₀ k₀ : Journal} (hearlier : InStep base j₀ k₀) :
    InStep base (j.restore j₀) (k.restore k₀) := by
  have hback : InStep base { j with accounts := j₀.accounts } { k with accounts := k₀.accounts } :=
    ⟨hearlier.accounts, h.adds, h.grown, h.complete, hearlier.knows⟩
  unfold Journal.restore
  rw [h.accounts]
  exact hback.foldl (fun e h => h.keepRead e.1 e.2) _

theorem transfer (h : InStep base j k) (caller target : Address) (value : Nat) :
    ∃ halt j' k', j.transfer caller target value = (halt, j')
      ∧ k.transfer caller target value = (halt, k') ∧ InStep base j' k' := by
  obtain ⟨sender, j₁, k₁, hj₁, hk₁, _, h₁⟩ := h.load caller
  obtain ⟨_, j₂, k₂, hj₂, hk₂, _, h₂⟩ := h₁.load target
  unfold Journal.transfer
  simp only [hj₁, hk₁, hj₂, hk₂]
  by_cases hfunds : sender.info.balance < value
  · simp only [if_pos hfunds]
    exact ⟨_, _, _, rfl, rfl, h₂⟩
  by_cases hself : caller = target
  · simp only [if_neg hfunds, if_pos hself]
    exact ⟨_, _, _, rfl, rfl, h₂⟩
  by_cases hzero : value = 0
  · simp only [if_neg hfunds, if_neg hself, if_pos hzero]
    exact ⟨_, _, _, rfl, rfl, h₂.touch target⟩
  -- The caller pays, and is paid back by nobody if the recipient cannot hold the sum.
  have hpaid := h₂.update caller (f := fun live => { live with
      touched := true
      info := { live.info with balance := live.info.balance - value } }) fun _ hlive => hlive
  obtain ⟨recipient, _, _, hj₃, hk₃, _, _⟩ := hpaid.load target
  simp only [if_neg hfunds, if_neg hself, if_neg hzero, hj₃, hk₃]
  split
  next => exact ⟨_, _, _, rfl, rfl, hpaid.credit target value⟩
  next => exact ⟨_, _, _, rfl, rfl, hpaid⟩

end Journal.InStep

/-! ## Creations -/

/-- Two creations that begin alike. -/
inductive Journal.CreationStart.InStep (base : World) :
    Journal.CreationStart → Journal.CreationStart → Prop where
  | refused {finish : Finish} {j k : Journal} (journal : j.InStep base k) :
      InStep base (.refused finish j) (.refused finish k)
  | started {address : Address} {j₀ k₀ j k : Journal} (earlier : j₀.InStep base k₀)
      (journal : j.InStep base k) :
      InStep base (.started address j₀ j) (.started address k₀ k)

theorem Journal.InStep.startCreation {base : World} {j k : Journal} (h : j.InStep base k)
    (request : Journal.CreateRequest) :
    (j.startCreation request).InStep base (k.startCreation request) := by
  obtain ⟨creator, j₁, k₁, hj₁, hk₁, hcreator, h₁⟩ := h.load request.creator
  unfold Journal.startCreation
  simp only [hj₁, hk₁]
  by_cases hfunds : creator.info.balance < request.value
  · simp only [if_pos hfunds]
    exact .refused h₁
  by_cases hlast : maxUInt64 ≤ creator.info.nonce
  · simp only [if_neg hfunds, if_pos hlast]
    exact .refused h₁
  have hbumped := h₁.put request.creator
    { creator with info := { creator.info with nonce := creator.info.nonce + 1 } } hcreator
  obtain ⟨target, j₂, k₂, hj₂, hk₂, _, h₂⟩ := hbumped.load (request.address creator.info.nonce)
  simp only [if_neg hfunds, if_neg hlast, hj₂, hk₂]
  by_cases htaken : target.info.codeHash ≠ emptyCodeHash ∨ target.info.nonce ≠ 0
  · simp only [if_pos htaken]
    exact .refused h₂
  by_cases hfull : Word.size ≤ target.info.balance + request.value
  · simp only [if_neg htaken, if_pos hfull]
    exact .refused h₂
  -- The new account has no code of its own yet, and the digest of none.
  have hdigest : target.info.codeHash = emptyCodeHash :=
    Classical.byContradiction fun hne => htaken (.inl hne)
  have hknows : base.Knows { target.info with
      code := none, nonce := 1, balance := target.info.balance + request.value } := by
    intro _
    simp only [hdigest]
    exact base.contains_emptyCodeHash
  simp only [if_neg htaken, if_neg hfull]
  exact .started h₂ ((h₂.put _ _ hknows).update request.creator fun _ hlive => hlive)

/-! ## Frames -/

/-- Two hosts that have counted the same, over journals in step. -/
structure Host.InStep (base : World) (g h : Host) : Prop where
  tally : g.tally = h.tally
  journal : g.journal.InStep base h.journal

namespace Host.InStep

variable {base : World} {g h : Host}

theorem withJournal (hhost : InStep base g h) {j k : Journal} (hnext : j.InStep base k) :
    InStep base { g with journal := j } { h with journal := k } :=
  ⟨hhost.tally, hnext⟩

theorem countStep (hhost : InStep base g h) : InStep base g.countStep h.countStep :=
  ⟨by rw [Host.countStep, Host.countStep, hhost.tally], hhost.journal⟩

theorem countCall (hhost : InStep base g h) : InStep base g.countCall h.countCall :=
  ⟨by rw [Host.countCall, Host.countCall, hhost.tally], hhost.journal⟩

theorem countCreate (hhost : InStep base g h) : InStep base g.countCreate h.countCreate :=
  ⟨by rw [Host.countCreate, Host.countCreate, hhost.tally], hhost.journal⟩

theorem noteCreated (hhost : InStep base g h) (address : Option Address) :
    InStep base (g.noteCreated address) (h.noteCreated address) :=
  ⟨by rw [Host.noteCreated, Host.noteCreated, hhost.tally], hhost.journal⟩

end Host.InStep

/-- Two instructions that lead to the same, over hosts in step. -/
inductive Progress.InStep (base : World) : Progress → Progress → Prop where
  | next {m : Machine} {g h : Host} (host : g.InStep base h) :
      InStep base (.next m g) (.next m h)
  | done {finish : Finish} {output : Bytes} {m : Machine} {g h : Host}
      (host : g.InStep base h) : InStep base (.done finish output m g) (.done finish output m h)

/-- A way of doing creations that keeps hosts in step. -/
def Creator.KeepsStep (base : World) (create : Creator) : Prop :=
  ∀ request (g h : Host), g.InStep base h →
    ∃ result g' h', create request g = (result, g') ∧ create request h = (result, h')
      ∧ g'.InStep base h'

namespace Progress.InStep

variable {base : World} {g h : Host}

theorem ofMachine (hhost : g.InStep base h) (m : Machine)
    (outcome : Except HaltReason Machine) :
    InStep base (.ofMachine m g outcome) (.ofMachine m h outcome) := by
  cases outcome with
  | ok m' => exact .next hhost
  | error reason => exact .done hhost

theorem ofOutput (hhost : g.InStep base h) (m : Machine) (finish : Finish)
    (outcome : Except HaltReason (Bytes × Machine)) :
    InStep base (.ofOutput m g finish outcome) (.ofOutput m h finish outcome) := by
  cases outcome with
  | ok read => exact .done hhost
  | error reason => exact .done hhost

theorem sstore (hhost : g.InStep base h) (m : Machine) (address : Address) :
    InStep base (m.sstore g address) (m.sstore h address) := by
  unfold Machine.sstore
  cases m.pop2 with
  | error reason => exact .done hhost
  | ok popped =>
    obtain ⟨slot, value, m'⟩ := popped
    obtain ⟨s, warm, j', k', hj, hk, hnext⟩ := hhost.journal.loadSlot address slot
    simp only [hj, hk]
    by_cases hstipend : m'.gas ≤ Gas.callStipend
    · simp only [if_pos hstipend]
      exact .done (hhost.withJournal hnext)
    · simp only [if_neg hstipend]
      cases m'.charge _ with
      | error reason => exact .done (hhost.withJournal hnext)
      | ok paid => exact .next (hhost.withJournal (hnext.writeSlot address slot value))

variable {create : Creator}

theorem createContract (hhost : g.InStep base h) (hcreate : create.KeepsStep base)
    (m : Machine) (context : FrameContext) (salted : Bool) :
    InStep base (m.createContract g context create salted)
      (m.createContract h context create salted) := by
  unfold Machine.createContract
  cases m.takeCreation context salted with
  | error reason => exact .done hhost
  | ok taken =>
    obtain ⟨request, m'⟩ := taken
    obtain ⟨result, g', h', hg, hh, hnext⟩ := hcreate request g h hhost
    simp only [hg, hh]
    exact .ofMachine hnext m' _

/-- Every instruction keeps hosts in step. -/
theorem step (hhost : g.InStep base h) (hcreate : create.KeepsStep base) (m : Machine)
    (context : FrameContext) (instruction : Instruction) :
    InStep base (m.step g context create instruction) (m.step h context create instruction) := by
  cases instruction with
  | sstore => exact .sstore hhost m context.address
  | create => exact .createContract hhost hcreate m context false
  | create2 => exact .createContract hhost hcreate m context true
  | ret => exact .ofOutput hhost m .returned m.output
  | revert => exact .ofOutput hhost m .reverted m.output
  | add => exact .ofMachine hhost m m.add
  | pop => exact .ofMachine hhost m m.drop
  | mstore => exact .ofMachine hhost m m.mstore
  | mstore8 => exact .ofMachine hhost m m.mstore8
  | push immediate => exact .ofMachine hhost m _
  | stop => exact .done hhost
  | invalid => exact .done hhost
  | unknown code => exact .done hhost

end Progress.InStep

namespace Host.InStep

variable {base : World} {g h : Host}

/-- By induction on the code: two runs of it end alike. -/
theorem run (hhost : InStep base g h) {create : Creator} (hcreate : create.KeepsStep base)
    (m : Machine) (context : FrameContext) (code : List Instruction) :
    ∃ finish output m' g' h', m.run g context create code = (finish, output, m', g')
      ∧ m.run h context create code = (finish, output, m', h') ∧ InStep base g' h' := by
  induction code generalizing m g h with
  | nil => exact ⟨_, _, _, _, _, rfl, rfl, hhost.countStep⟩
  | cons instruction rest ih =>
    have hstep := Progress.InStep.step hhost.countStep hcreate m context instruction
    rw [Machine.run, Machine.run]
    -- From here on only how the two steps are related matters.
    generalize m.step g.countStep context create instruction = left at hstep
    generalize m.step h.countStep context create instruction = right at hstep
    cases hstep with
    | next hnext => exact ih hnext _
    | done hdone => exact ⟨_, _, _, _, _, rfl, rfl, hdone⟩

theorem finishCreation (hhost : InStep base g h) (config : Config) (address : Address)
    {j₀ k₀ : Journal} (hearlier : j₀.InStep base k₀) (finish : Finish) (output : Bytes)
    (m : Machine) :
    ∃ result g' h', Frame.finishCreation config address j₀ finish output m g = (result, g')
      ∧ Frame.finishCreation config address k₀ finish output m h = (result, h')
      ∧ InStep base g' h' := by
  have hundone := hhost.withJournal (hhost.journal.restore hearlier)
  have hdeployed := hhost.withJournal (hhost.journal.update address
    (f := fun live => { live with info := live.info.withCode output })
    fun _ _ => World.knows_of_code rfl)
  unfold Frame.finishCreation
  cases finish.isSuccess with
  | false => exact ⟨_, _, _, rfl, rfl, hundone.noteCreated none⟩
  | true =>
    cases Frame.deposit config output m.gas with
    | error reason => exact ⟨_, _, _, rfl, rfl, hundone.noteCreated none⟩
    | ok gas => exact ⟨_, _, _, rfl, rfl, hdeployed.noteCreated (some address)⟩

end Host.InStep

namespace Frame

variable {base : World}

/-- By induction on the depth that is left: creations keep hosts in step. -/
theorem create_keepsStep (config : Config) (depth : Nat) :
    Creator.KeepsStep base (create config depth) := by
  induction depth with
  | zero =>
    intro request g h hhost
    exact ⟨_, _, _, rfl, rfl, hhost.countCreate.noteCreated none⟩
  | succ depth ih =>
    intro request g h hhost
    have hcounted := hhost.countCreate
    have hstart := hcounted.journal.startCreation request
    rw [create, create]
    simp only
    generalize g.countCreate.journal.startCreation request = left at hstart
    generalize h.countCreate.journal.startCreation request = right at hstart
    cases hstart with
    | refused hnext => exact ⟨_, _, _, rfl, rfl, (hcounted.withJournal hnext).noteCreated none⟩
    | @started address _ _ _ _ hearlier hnext =>
      obtain ⟨finish, output, m, g', h', hg, hh, hran⟩ :=
        (hcounted.withJournal hnext).run ih { gas := request.gas } ⟨config, address⟩
          (disassemble request.initCode)
      simp only [hg, hh]
      exact hran.finishCreation config address hearlier finish output m

theorem codeToRun_inStep {j k : Journal} (h : j.InStep base k) (target : Address) :
    ∃ code j' k', codeToRun j target = (code, j') ∧ codeToRun k target = (code, k')
      ∧ j'.InStep base k' := by
  obtain ⟨live, code, j₁, k₁, hj₁, hk₁, _, h₁⟩ := h.loadCode target
  unfold codeToRun
  simp only [hj₁, hk₁]
  cases delegate? code with
  | none => exact ⟨_, _, _, rfl, rfl, h₁⟩
  | some address =>
    obtain ⟨_, code', j₂, k₂, hj₂, hk₂, _, h₂⟩ := h₁.loadCode address
    simp only [hj₂, hk₂]
    exact ⟨_, _, _, rfl, rfl, h₂⟩

theorem call_inStep {g h : Host} (hhost : g.InStep base h) (config : Config)
    (caller target : Address) (value gas : Nat) :
    ∃ result g' h', call config caller target value gas g = (result, g')
      ∧ call config caller target value gas h = (result, h') ∧ g'.InStep base h' := by
  have hcounted := hhost.countCall
  obtain ⟨halt, j₁, k₁, hj₁, hk₁, h₁⟩ := hcounted.journal.transfer caller target value
  unfold call
  simp only [hj₁, hk₁]
  cases halt with
  | some reason => exact ⟨_, _, _, rfl, rfl, hcounted.withJournal h₁⟩
  | none =>
    obtain ⟨code, j₂, k₂, hj₂, hk₂, h₂⟩ := codeToRun_inStep h₁ target
    simp only [hj₂, hk₂]
    cases code.isEmpty with
    | true => exact ⟨_, _, _, rfl, rfl, hcounted.withJournal h₂⟩
    | false =>
      obtain ⟨finish, output, m, g', h', hg, hh, hran⟩ :=
        (hcounted.withJournal h₂).run (create_keepsStep config (maxDepth - 1))
          { gas := gas } ⟨config, target⟩ (disassemble code)
      simp only [hg, hh, Bool.false_eq_true, if_false]
      cases finish.isSuccess with
      | true => exact ⟨_, _, _, rfl, rfl, hran⟩
      | false =>
        have hundone := hran.withJournal (hran.journal.restore hcounted.journal)
        exact ⟨_, _, _, rfl, rfl, hundone⟩

end Frame

/-! ## Transactions -/

namespace Mainnet

variable {base : World} {j k : Journal}

theorem authorize_inStep (h : j.InStep base k) (chainId existing : Nat) (item : Authorization) :
    ∃ existing' j' k', authorize chainId (existing, j) item = (existing', j')
      ∧ authorize chainId (existing, k) item = (existing', k') ∧ j'.InStep base k' := by
  obtain ⟨live, code, j₁, k₁, hj, hk, hlive, hnext⟩ := h.loadCode item.authority
  unfold authorize
  simp only [hj, hk]
  split
  next => exact ⟨_, _, _, rfl, rfl, h⟩
  next =>
    split
    next => exact ⟨_, _, _, rfl, rfl, h⟩
    next =>
      split
      next => exact ⟨_, _, _, rfl, rfl, hnext⟩
      next =>
        split
        next => exact ⟨_, _, _, rfl, rfl, hnext⟩
        next => exact ⟨_, _, _, rfl, rfl, hnext.put item.authority _ (World.knows_of_code rfl)⟩

theorem applyAuthorizations_inStep (h : j.InStep base k) (config : Config) (tx : Transaction) :
    ∃ existing j' k', applyAuthorizations config tx j = (existing, j')
      ∧ applyAuthorizations config tx k = (existing, k') ∧ j'.InStep base k' := by
  have hfold : ∀ (items : List Authorization) (existing : Nat) {j k : Journal},
      j.InStep base k → ∃ existing' j' k',
        items.foldl (authorize config.chainId) (existing, j) = (existing', j')
          ∧ items.foldl (authorize config.chainId) (existing, k) = (existing', k')
          ∧ j'.InStep base k' := by
    intro items
    induction items with
    | nil => exact fun existing j k h => ⟨_, _, _, rfl, rfl, h⟩
    | cons item rest ih =>
      intro existing j k h
      obtain ⟨existing', j', k', hj, hk, hnext⟩ :=
        authorize_inStep h config.chainId existing item
      rw [List.foldl_cons, List.foldl_cons, hj, hk]
      exact ih existing' hnext
  unfold applyAuthorizations
  split
  next => exact hfold tx.authorizations 0 h
  next => exact ⟨_, _, _, rfl, rfl, h⟩

theorem firstFrame_inStep (h : j.InStep base k) (config : Config) (tx : Transaction) :
    ∃ result g h, firstFrame config tx j = (result, g) ∧ firstFrame config tx k = (result, h)
      ∧ g.InStep base h := by
  have hhost : Host.InStep base ⟨j, {}⟩ ⟨k, {}⟩ := ⟨rfl, h⟩
  unfold firstFrame
  cases tx.target with
  | none => exact Frame.create_keepsStep config Frame.maxDepth _ _ _ hhost
  | some target => exact Frame.call_inStep hhost config tx.caller target tx.value _

theorem distribute_inStep (h : j.InStep base k) (block : Block) (tx : Transaction)
    (settlement : Settlement) :
    (distribute block tx settlement j).InStep base (distribute block tx settlement k) :=
  (h.credit tx.caller _).credit block.beneficiary _

theorem perform_inStep (h : j.InStep base k) (config : Config) (block : Block)
    (tx : Transaction) {sender : LiveAccount} (hsender : base.Knows sender.info) :
    ∃ execution world reference, perform config block tx sender j = (execution, world)
      ∧ perform config block tx sender k = (execution, reference)
      ∧ Journal.InStep base ⟨execution.changes, world⟩ ⟨execution.changes, reference⟩ := by
  have hpaid := h.put tx.caller (payForGas block tx sender) hsender
  have hannounced := hpaid.foldl (f := Journal.announce) (fun item h => h.announce item)
    tx.announced
  obtain ⟨authorities, j₁, k₁, hj₁, hk₁, h₁⟩ := applyAuthorizations_inStep hannounced config tx
  obtain ⟨result, g, host, hg, hh, hframe⟩ := firstFrame_inStep h₁ config tx
  have hsettled := distribute_inStep hframe.journal block tx
    (settle config.spec tx authorities result)
  unfold perform
  simp only [hj₁, hk₁, hg, hh]
  rw [hframe.tally, hsettled.accounts]
  exact ⟨_, _, _, rfl, rfl, rfl, hsettled.adds, hsettled.grown, hsettled.complete, hsettled.knows⟩

end Mainnet

/-- The accounts that a transaction would write back; one that fails writes none. -/
def Executor.changes : Except ExecutionError Execution → LiveAccounts
  | .ok execution => execution.changes
  | .error _ => ∅

/-- Two worlds that a transaction leaves with the same outcome, so that the same accounts would
be written back to both. -/
abbrev World.LeftInStep (base : World) (outcome : Except ExecutionError Execution)
    (world reference : World) : Prop :=
  Journal.InStep base ⟨Executor.changes outcome, world⟩
    ⟨Executor.changes outcome, reference⟩

section Transactions

variable {base world reference : World}

theorem Handler.proceed_inStep (h : Journal.InStep base ⟨∅, world⟩ ⟨∅, reference⟩)
    (config : Config) (block : Block) (tx : Transaction) :
    ∃ outcome world' reference', mainnet.proceed config block world tx = (outcome, world')
      ∧ mainnet.proceed config block reference tx = (outcome, reference')
      ∧ World.LeftInStep base outcome world' reference' := by
  unfold proceed
  obtain ⟨sender, code, j, k, hj, hk, hsender, hloaded⟩ := h.loadCode tx.caller
  simp only [hj, hk]
  cases mainnet.validateSender config tx sender.info code with
  | some e =>
    exact ⟨_, _, _, rfl, rfl, .start hloaded.adds hloaded.grown hloaded.complete⟩
  | none =>
    obtain ⟨execution, world', reference', hw, hr, hleft⟩ :=
      Mainnet.perform_inStep hloaded config block tx hsender
    simp only [mainnet, hw, hr]
    exact ⟨_, _, _, rfl, rfl, hleft⟩

namespace Executor

variable (executor : Executor) (tx : Transaction)

/-- A transaction ends alike over a world with copies and over the one without, and reports
the same. -/
theorem transact_inStep (h : Journal.InStep base ⟨∅, world⟩ ⟨∅, reference⟩) :
    ∃ outcome world' reference' log, executor.transact world tx = ⟨(outcome, world'), log⟩
      ∧ executor.transact reference tx = ⟨(outcome, reference'), log⟩
      ∧ World.LeftInStep base outcome world' reference' := by
  unfold transact Handler.run
  rcases (Handler.deployment executor.gate).validate executor.config executor.block tx
    with ⟨_ | e, log⟩
  · obtain ⟨outcome, world', reference', hw, hr, hleft⟩ :=
      Handler.proceed_inStep h executor.config executor.block tx
    refine ⟨outcome, world', reference', log ++ [], ?_, ?_, hleft⟩
    · rw [← hw]
      rfl
    · rw [← hr]
      rfl
  · exact ⟨_, _, _, _, rfl, rfl, h⟩

/-- A transaction that is not committed adds nothing but copies to a complete world. -/
theorem addsCopies_transact (h : world.Complete) :
    (executor.transact world tx).value.2.AddsCopies world := by
  obtain ⟨outcome, world', reference', log, hw, _, hleft⟩ :=
    executor.transact_inStep tx (.start (.refl world) (.refl world) h)
  rw [hw]
  exact hleft.adds.trans hleft.grown

/-- A committed transaction writes the same accounts to both worlds. -/
theorem transactCommit_inStep (hadds : world.AddsCopies reference)
    (hcomplete : reference.Complete) :
    ∃ outcome world' reference' log, executor.transactCommit world tx = ⟨(outcome, world'), log⟩
      ∧ executor.transactCommit reference tx = ⟨(outcome, reference'), log⟩
      ∧ world'.AddsCopies reference' ∧ reference'.Complete := by
  obtain ⟨outcome, world', reference', log, hw, hr, hleft⟩ :=
    executor.transact_inStep tx (.start hadds (.refl reference) hcomplete)
  have hcomplete' : reference'.Complete := hcomplete.of_addsCopies hleft.grown
  unfold transactCommit
  rw [hw, hr]
  cases outcome with
  | error e => exact ⟨_, _, _, _, rfl, rfl, hleft.adds, hcomplete'⟩
  | ok execution =>
    have hchanges : ∀ address live, execution.changes.get? address = some live →
        reference'.Knows live.info := fun address live hlive =>
      (hleft.grown.knows_iff live.info).mpr (hleft.knows address live hlive)
    exact ⟨_, _, _, _, rfl, rfl, hleft.adds.commit execution.changes, hcomplete'.commit hchanges⟩

end Executor

end Transactions

end CreationGate
