import CreationGate.Proofs.Assembly.Runs

/-!
# What assembled programs do

In a frame with a 64-bit amount of gas, code that deploys a runtime returns that runtime or
fails, and leaves the accounts alone either way (`Machine.run_deploy`, `Machine.journal_run`).
A factory (`Assembly.factory`) asks for one creation, from exactly the initialization code and
salt that it was made with, and stores what the creation leaves on its stack: the new address,
or zero (`Machine.run_factory`).
-/

namespace CreationGate

/-! ## Code that leaves the accounts alone -/

/-- An instruction that looks at no account and changes none. -/
def Instruction.isLocal : Instruction → Bool
  | sstore => false
  | create => false
  | create2 => false
  | _ => true

namespace Assembly

theorem isLocal_of_mem_stores {offset : UInt64} {pieces : List Bytes} {instruction : Instruction}
    (h : instruction ∈ stores offset pieces) : instruction.isLocal = true := by
  induction pieces generalizing offset with
  | nil => cases h
  | cons piece pieces ih =>
    simp only [stores, List.mem_cons] at h
    rcases h with rfl | rfl | rfl | hlater
    · rfl
    · rfl
    · rfl
    · exact ih hlater

theorem isLocal_of_mem_deploy {runtime : Bytes} {instruction : Instruction}
    (h : instruction ∈ disassemble (deploy runtime)) : instruction.isLocal = true := by
  rw [disassemble_deploy, List.mem_append] at h
  rcases h with hstore | htail
  · exact isLocal_of_mem_stores hstore
  · simp only [List.mem_cons, List.not_mem_nil, or_false] at htail
    rcases htail with rfl | rfl | rfl <;> rfl

end Assembly

namespace Progress

/-- The accounts as they are when an instruction is done. -/
def journal : Progress → Journal
  | next _ host => host.journal
  | done _ _ _ host => host.journal

theorem journal_ofMachine (m : Machine) (host : Host) (outcome : Except HaltReason Machine) :
    (ofMachine m host outcome).journal = host.journal := by
  cases outcome <;> rfl

theorem journal_ofOutput (m : Machine) (host : Host) (finish : Finish)
    (outcome : Except HaltReason (Bytes × Machine)) :
    (ofOutput m host finish outcome).journal = host.journal := by
  cases outcome <;> rfl

end Progress

namespace Machine

section Local

variable (context : FrameContext) (create : Creator)

theorem journal_step (m : Machine) (host : Host) {instruction : Instruction}
    (h : instruction.isLocal = true) :
    (m.step host context create instruction).journal = host.journal := by
  cases instruction with
  | sstore => cases h
  | create => cases h
  | create2 => cases h
  | add => exact Progress.journal_ofMachine m host _
  | pop => exact Progress.journal_ofMachine m host _
  | mstore => exact Progress.journal_ofMachine m host _
  | mstore8 => exact Progress.journal_ofMachine m host _
  | push immediate => exact Progress.journal_ofMachine m host _
  | ret => exact Progress.journal_ofOutput m host .returned _
  | revert => exact Progress.journal_ofOutput m host .reverted _
  | stop => rfl
  | invalid => rfl
  | unknown opcode => rfl

/-- By induction on the code: however a run of local instructions ends, the accounts are as
they were. -/
theorem journal_run {code : List Instruction}
    (h : ∀ instruction ∈ code, instruction.isLocal = true) (m : Machine) (host : Host) :
    (m.run host context create code).2.2.2.journal = host.journal := by
  induction code generalizing m host with
  | nil => rfl
  | cons instruction rest ih =>
    have hstep := journal_step context create m host.countStep (h instruction List.mem_cons_self)
    rw [run]
    cases hprogress : m.step host.countStep context create instruction with
    | next m' host' =>
      rw [hprogress] at hstep
      have hrest := ih (fun later hlater => h later (List.mem_cons_of_mem instruction hlater)) m'
        host'
      exact hrest.trans hstep
    | done finish output m' host' =>
      rw [hprogress] at hstep
      exact hstep

end Local

/-! ## Taking bytes out of memory -/

theorem readRange_eq_ok {m m' : Machine} {offset : Word} {length : Nat} {bytes : Bytes}
    (h : m.readRange offset length = .ok (bytes, m')) :
    bytes = (m.memory.grow (32 * Gas.words (offset.toNat + length))).read offset.toNat length
      ∧ m'.stack = m.stack ∧ m'.gas ≤ m.gas := by
  unfold readRange at h
  split at h
  next hempty =>
    cases h
    subst hempty
    refine ⟨?_, rfl, Nat.le_refl _⟩
    rw [Memory.read, Nat.add_zero, Array.extract_empty_of_stop_le_start (Nat.le_refl _)]
  next =>
    obtain ⟨n, hindex, h⟩ := bind_eq_ok h
    obtain rfl := index_eq_ok hindex
    obtain ⟨reached, hreach, h⟩ := bind_eq_ok h
    have hmoved := moved_reach hreach
    cases h
    refine ⟨?_, hmoved.stack_eq, ?_⟩
    · rw [hmoved.memory_eq]
    · rw [reach_eq] at hreach
      split at hreach
      next =>
        cases hreach
        exact Nat.sub_le _ _
      next => cases hreach

/-- A byte string stored at the bottom of an empty memory and padded is read back alone. -/
theorem read_padded (bytes : Bytes) :
    ((Memory.empty.store 0 (Assembly.padRight 32 bytes)).grow
      (32 * Gas.words (0 + bytes.length))).read 0 bytes.length = bytes := by
  have hroom : 32 * Gas.words (0 + bytes.length)
      ≤ (Memory.empty.store 0 (Assembly.padRight 32 bytes)).size := by
    by_cases hbytes : Assembly.padRight 32 bytes = []
    · have hnil : bytes = [] := (List.append_eq_nil_iff.mp hbytes).1
      subst hnil
      exact Nat.zero_le _
    · rw [Memory.size_store _ _ hbytes, Assembly.length_padRight]
      unfold Gas.words
      omega
  rw [Memory.grow_of_le hroom]
  exact Memory.read_store _ _ _ _

section Runs

variable {context : FrameContext} {create : Creator} {m : Machine} {host : Host}
  {rest : List Instruction}

theorem run_ret {offset length : Word} {stack : List Word}
    (hstack : m.stack = offset :: length :: stack)
    (h : (m.run host context create (.ret :: rest)).1.isSuccess = true) :
    ∃ m', m.run host context create (.ret :: rest)
      = (.returned, (m.memory.grow (32 * Gas.words (offset.toNat + length.toNat))).read
          offset.toNat length.toNat, m', host.countStep) := by
  rw [run] at h ⊢
  simp only [step] at h ⊢
  cases houtput : m.output with
  | error reason =>
    rw [houtput] at h
    cases h
  | ok read =>
    obtain ⟨bytes, m'⟩ := read
    obtain ⟨⟨a, b, popped⟩, hpop, hread⟩ := bind_eq_ok houtput
    simp only [pop2, hstack, Except.ok.injEq, Prod.mk.injEq] at hpop
    obtain ⟨rfl, rfl, rfl⟩ := hpop
    obtain ⟨n, hindex, hread⟩ := bind_eq_ok hread
    obtain rfl := index_eq_ok hindex
    obtain ⟨rfl, _, _⟩ := readRange_eq_ok hread
    exact ⟨m', rfl⟩

theorem run_sstore {slot value : Word} {stack : List Word}
    (hstack : m.stack = slot :: value :: stack)
    (h : (m.run host context create (.sstore :: rest)).1.isSuccess = true) :
    ∃ (m' : Machine) (host' : Host),
      m.run host context create (.sstore :: rest) = m'.run host' context create rest
      ∧ host'.journal = (host.journal.loadSlot context.address slot).2.2.writeSlot
          context.address slot value := by
  have hpop : m.pop2 = .ok (slot, value, { m with stack := stack }) := by
    simp only [pop2, hstack]
  rw [run] at h ⊢
  simp only [step, sstore, hpop] at h ⊢
  by_cases hstipend : m.gas ≤ Gas.callStipend
  · rw [if_pos hstipend] at h
    cases h
  rw [if_neg hstipend] at h ⊢
  cases hcharge : charge _ _ with
  | error reason =>
    rw [hcharge] at h
    cases h
  | ok paid => exact ⟨_, _, rfl, rfl⟩

theorem budget_start (gas : Nat) : ({ gas := gas } : Machine).budget = gas := by
  have hnothing : Gas.memory (Memory.empty.size / 32) = 0 := by decide
  exact congrArg (gas + ·) hnothing

/-- Behind the stored bytes of a string and some pushes, a machine that began empty holds the
padded string and what was pushed. -/
theorem run_stored {gas : Nat} (hgas : gas ≤ maxUInt64) {bytes : Bytes} (immediates : List Bytes)
    (h : (run { gas := gas } host context create (Assembly.stores 0 (Assembly.pieces bytes)
      ++ (immediates.map .push ++ rest))).1.isSuccess = true) :
    ∃ (m' : Machine) (host' : Host), run { gas := gas } host context create
          (Assembly.stores 0 (Assembly.pieces bytes) ++ (immediates.map .push ++ rest))
        = m'.run host' context create rest
      ∧ host'.journal = host.journal
      ∧ m'.stack = (immediates.map Word.ofBytes).reverse
      ∧ m'.memory = Memory.empty.store 0 (Assembly.padRight 32 bytes)
      ∧ m'.gas ≤ maxUInt64 ∧ bytes.length < 2 ^ 42 := by
  have hpieces : ∀ piece ∈ Assembly.pieces bytes, piece.length = 32 := fun _ hpiece =>
    Assembly.length_of_mem_pieces hpiece
  have hbudget : ({ gas := gas } : Machine).budget ≤ maxUInt64 := by
    rw [budget_start]
    exact hgas
  have hfits := fits_of_isSuccess hpieces (by decide) hbudget h
  have hlength := Assembly.length_pieces bytes
  have hpadded := Assembly.length_padRight bytes
  have hzero : (0 : UInt64).toNat = 0 := rfl
  obtain ⟨m₁, host₁, hrun₁, hjournal₁, hmoved₁⟩ := run_stores hpieces (by omega) h
  rw [hrun₁] at h ⊢
  obtain ⟨m₂, host₂, hrun₂, hjournal₂, hmoved₂⟩ := run_pushes immediates h
  have hmoved := hmoved₁.trans hmoved₂
  refine ⟨m₂, host₂, hrun₂, hjournal₂.trans hjournal₁, ?_, ?_, ?_, by omega⟩
  · rw [hmoved₂.stack_eq, hmoved₁.stack_eq, List.append_nil]
  · rw [hmoved₂.memory_eq, hmoved₁.memory_eq, Assembly.flatten_pieces]
    rfl
  · exact Nat.le_trans (Nat.le_add_right _ _) (Nat.le_trans hmoved.budget_le hbudget)

/-- Code that deploys a runtime returns it, if it does not fail. -/
theorem run_deploy (context : FrameContext) (create : Creator) (host : Host) {gas : Nat}
    (hgas : gas ≤ maxUInt64) {runtime : Bytes}
    (h : (run { gas := gas } host context create
      (disassemble (Assembly.deploy runtime))).1.isSuccess = true) :
    ∃ (m' : Machine) (host' : Host),
      run { gas := gas } host context create (disassemble (Assembly.deploy runtime))
      = (.returned, runtime, m', host') := by
  have hpushes : ([.push (Bytes.ofUInt64 (UInt64.ofNat runtime.length)), .push [], .ret] :
      List Instruction)
        = [Bytes.ofUInt64 (UInt64.ofNat runtime.length), []].map .push ++ [.ret] := rfl
  rw [Assembly.disassemble_deploy, hpushes] at h ⊢
  obtain ⟨m₁, host₁, hrun₁, _, hstack, hmemory, _, hlength⟩ := run_stored hgas _ h
  rw [hrun₁] at h ⊢
  obtain ⟨m₂, hrun₂⟩ := run_ret hstack h
  have hwhole := Word.toNat_ofUInt64_ofNat (Nat.lt_trans hlength (by decide))
  have hbottom : (Word.ofBytes []).toNat = 0 := rfl
  rw [hwhole, hbottom, hmemory, read_padded] at hrun₂
  exact ⟨m₂, host₁.countStep, hrun₂⟩

/-! ## Creations -/

end Runs

/-- The last price of a creation, and the gas that it passes on. -/
theorem forward_eq_ok {m m' : Machine} {price : Nat} {request : Journal.CreateRequest}
    (ask : Nat → Journal.CreateRequest)
    (h : (m.charge price >>= fun m => m.charge (m.gas - m.gas / 64) >>= fun m' =>
      pure (ask (m.gas - m.gas / 64), m')) = .ok (request, m')) :
    ∃ gas, request = ask gas ∧ gas ≤ m.gas ∧ m'.stack = m.stack := by
  obtain ⟨charged, hcharge, h⟩ := bind_eq_ok h
  obtain ⟨_, rfl⟩ := charge_eq_ok hcharge
  obtain ⟨forwarded, hforward, h⟩ := bind_eq_ok h
  obtain ⟨_, rfl⟩ := charge_eq_ok hforward
  cases h
  exact ⟨_, rfl, Nat.le_trans (Nat.sub_le _ _) (Nat.sub_le _ _), rfl⟩

/-- A creation takes its initialization code and salt from where the stack says, and at most
the gas that there is. -/
theorem takeCreation_eq_ok {context : FrameContext} {m m' : Machine}
    {request : Journal.CreateRequest} {value offset length : Word} {salt : Option Word}
    {stack : List Word} (hstack : m.stack = value :: offset :: length :: (salt.toList ++ stack))
    (h : m.takeCreation context salt.isSome = .ok (request, m')) :
    request = ⟨context.address, value.toNat,
        (m.memory.grow (32 * Gas.words (offset.toNat + length.toNat))).read
          offset.toNat length.toNat, salt, request.gas⟩
      ∧ request.gas ≤ m.gas ∧ m'.stack = stack := by
  unfold takeCreation at h
  obtain ⟨⟨a, b, c, popped⟩, hpop, h⟩ := bind_eq_ok h
  simp only [pop3, hstack, Except.ok.injEq, Prod.mk.injEq] at hpop
  obtain ⟨rfl, rfl, rfl, rfl⟩ := hpop
  obtain ⟨n, hindex, h⟩ := bind_eq_ok h
  obtain rfl := index_eq_ok hindex
  simp only at h
  split at h
  next => cases h
  next =>
    obtain ⟨charged, hcharge, h⟩ := bind_eq_ok h
    obtain ⟨_, rfl⟩ := charge_eq_ok hcharge
    obtain ⟨⟨initCode, read⟩, hread, h⟩ := bind_eq_ok h
    obtain ⟨rfl, hleft, hspent⟩ := readRange_eq_ok hread
    have hgas : read.gas ≤ m.gas := Nat.le_trans hspent (Nat.sub_le _ _)
    cases salt with
    | none =>
      obtain ⟨⟨_, taken⟩, htake, h⟩ := bind_eq_ok h
      cases htake
      obtain ⟨gas, rfl, hle, hstack'⟩ := forward_eq_ok
        (fun gas => ⟨context.address, value.toNat, _, none, gas⟩) h
      exact ⟨rfl, Nat.le_trans hle hgas, hstack'.trans hleft⟩
    | some salt =>
      obtain ⟨⟨popped, taken⟩, hpop, h⟩ := bind_eq_ok h
      simp only [pop, hleft, Option.toList_some, List.singleton_append, Except.ok.injEq,
        Prod.mk.injEq] at hpop
      obtain ⟨rfl, rfl⟩ := hpop
      obtain ⟨⟨_, taken⟩, htake, h⟩ := bind_eq_ok h
      cases htake
      obtain ⟨gas, rfl, hle, hstack'⟩ := forward_eq_ok
        (fun gas => ⟨context.address, value.toNat, _, some salt, gas⟩) h
      exact ⟨rfl, Nat.le_trans hle hgas, hstack'⟩

end Machine

/-- What a creation leaves on the stack of its opener: the new address, or zero. -/
def FrameResult.pushed (result : FrameResult) : Word :=
  match result.finish.isSuccess, result.address with
  | true, some address => .ofBytes address.bytes
  | _, _ => 0

theorem Machine.stack_resume {m m' : Machine} {result : FrameResult}
    (h : m.resume result = .ok m') : m'.stack = result.pushed :: m.stack := by
  unfold resume at h
  unfold FrameResult.pushed
  cases hsuccess : result.finish.isSuccess with
  | false =>
    simp only [hsuccess] at h ⊢
    rw [push_eq_ok h]
  | true =>
    cases haddress : result.address with
    | none =>
      simp only [hsuccess, haddress] at h ⊢
      rw [push_eq_ok h]
    | some address =>
      simp only [hsuccess, haddress] at h ⊢
      rw [push_eq_ok h]

namespace Assembly

/-- Code that creates a contract from a runtime, stores its address in the first slot and
stops. -/
def factory (runtime : Bytes) (salt : Option Word) : Bytes :=
  (match salt with
    | none => create (deploy runtime)
    | some salt => create2 (deploy runtime) salt) ++ storeTop 0 ++ [0x00]

/-- A factory is what the builder assembles from three calls. -/
theorem assemble_factory (runtime : Bytes) (salt : Option Word) :
    assemble [salt.elim (.create (deploy runtime)) (.create2 (deploy runtime)), .storeTop 0, .stop]
      = .ok (factory runtime salt) := by
  cases salt <;> simp [assemble, Call.emit, factory]

/-- What a creation pushes, and the opcode that takes it. -/
theorem creation_eq (salt : Option Word) (length : Nat) :
    creation salt length
      = (salt.toList.map Word.bytes ++ [Bytes.ofUInt64 (UInt64.ofNat length), [], []]).map .push
        ++ [if salt.isSome then .create2 else .create] := by
  cases salt <;> rfl

theorem disassemble_factory (runtime : Bytes) (salt : Option Word) :
    disassemble (factory runtime salt)
      = stores 0 (pieces (deploy runtime))
        ++ (creation salt (deploy runtime).length ++ [.push [], .sstore, .stop]) := by
  have htail : disassemble (storeTop 0 ++ [0x00]) = [.push [], .sstore, .stop] := by
    rw [disassemble_storeTop, disassemble_opcode (by decide), disassemble]
    rfl
  cases salt with
  | none => rw [factory, List.append_assoc, disassemble_create, htail, List.append_assoc]
  | some salt => rw [factory, List.append_assoc, disassemble_create2, htail, List.append_assoc]

end Assembly

namespace Machine

variable {context : FrameContext} {create : Creator} {m : Machine} {host : Host}
  {rest : List Instruction}

theorem run_createContract {instruction : Instruction} {salted : Bool}
    (hstep : m.step host.countStep context create instruction
      = m.createContract host.countStep context create salted)
    (h : (m.run host context create (instruction :: rest)).1.isSuccess = true) :
    ∃ request m₁ m₂, m.takeCreation context salted = .ok (request, m₁)
      ∧ m₁.resume (create request host.countStep).1 = .ok m₂
      ∧ m.run host context create (instruction :: rest)
        = m₂.run (create request host.countStep).2 context create rest := by
  rw [run, hstep, createContract] at h ⊢
  cases htake : m.takeCreation context salted with
  | error reason =>
    rw [htake] at h
    cases h
  | ok taken =>
    obtain ⟨request, m₁⟩ := taken
    rw [htake] at h
    simp only at h ⊢
    cases hresume : m₁.resume (create request host.countStep).1 with
    | error reason =>
      rw [hresume] at h
      cases h
    | ok m₂ => exact ⟨request, m₁, m₂, rfl, hresume, rfl⟩

/-- The instructions of a creation push what it asks for and ask for it. -/
theorem run_creation {gas : Nat} (hgas : gas ≤ maxUInt64) {initCode : Bytes} {salt : Option Word}
    (h : (run { gas := gas } host context create (Assembly.stores 0 (Assembly.pieces initCode)
      ++ (Assembly.creation salt initCode.length ++ rest))).1.isSuccess = true) :
    ∃ (m' : Machine) (host' : Host) (forwarded : Nat),
      let created := create ⟨context.address, 0, initCode, salt, forwarded⟩ host'
      run { gas := gas } host context create (Assembly.stores 0 (Assembly.pieces initCode)
          ++ (Assembly.creation salt initCode.length ++ rest))
        = m'.run created.2 context create rest
      ∧ host'.journal = host.journal
      ∧ forwarded ≤ maxUInt64
      ∧ m'.stack = [created.1.pushed] := by
  rw [Assembly.creation_eq, List.append_assoc] at h ⊢
  obtain ⟨m₁, host₁, hrun₁, hjournal, hstack, hmemory, hleft, hlength⟩ := run_stored hgas _ h
  rw [hrun₁] at h ⊢
  have hstep : m₁.step host₁.countStep context create
      (if salt.isSome then Instruction.create2 else .create)
        = m₁.createContract host₁.countStep context create salt.isSome := by
    cases salt <;> rfl
  obtain ⟨request, m₂, m₃, htake, hresume, hrun₂⟩ := run_createContract hstep h
  have htop : m₁.stack
      = 0 :: 0 :: Word.ofBytes (Bytes.ofUInt64 (UInt64.ofNat initCode.length))
        :: (salt.toList ++ []) := by
    rw [hstack]
    cases salt with
    | none => rfl
    | some salt =>
      exact congrArg (fun top => [0, 0, Word.ofBytes (Bytes.ofUInt64 (UInt64.ofNat
        initCode.length)), top]) salt.ofBytes_bytes
  obtain ⟨hrequest, hforwarded, hempty⟩ := takeCreation_eq_ok htop htake
  have hwhole := Word.toNat_ofUInt64_ofNat (Nat.lt_trans hlength (by decide))
  have hbottom : (0 : Word).toNat = 0 := rfl
  rw [hwhole, hbottom, hmemory, read_padded] at hrequest
  have hpushed := stack_resume hresume
  rw [hempty, hrequest] at hpushed
  rw [hrequest] at hrun₂
  exact ⟨m₃, host₁.countStep, request.gas, hrun₂, hjournal, Nat.le_trans hforwarded hleft,
    hpushed⟩

/-- A factory that does not fail has asked for one creation, from the code of a deployment, and
has stored the new address in its first slot, or zero if there is none. -/
theorem run_factory (context : FrameContext) (create : Creator) (host : Host) {gas : Nat}
    (hgas : gas ≤ maxUInt64) {runtime : Bytes} {salt : Option Word}
    (h : (run { gas := gas } host context create
      (disassemble (Assembly.factory runtime salt))).1.isSuccess = true) :
    ∃ (host' : Host) (forwarded : Nat),
      let created := create ⟨context.address, 0, Assembly.deploy runtime, salt, forwarded⟩ host'
      host'.journal = host.journal
        ∧ forwarded ≤ maxUInt64
        ∧ (run { gas := gas } host context create
            (disassemble (Assembly.factory runtime salt))).2.2.2.journal
          = (created.2.journal.loadSlot context.address 0).2.2.writeSlot context.address 0
              created.1.pushed := by
  rw [Assembly.disassemble_factory] at h ⊢
  obtain ⟨m₁, host₁, forwarded, hrun₁, hjournal, hforwarded, hstack₁⟩ := run_creation hgas h
  rw [hrun₁] at h ⊢
  obtain ⟨m₂, hrun₂, hmoved⟩ := run_push h
  rw [hrun₂] at h ⊢
  have hstack₂ := hmoved.stack_eq
  rw [hstack₁] at hstack₂
  obtain ⟨m₃, host₃, hrun₃, hstored⟩ := run_sstore hstack₂ h
  rw [hrun₃]
  refine ⟨host₁, forwarded, hjournal, hforwarded, ?_⟩
  exact hstored

end Machine

end CreationGate
