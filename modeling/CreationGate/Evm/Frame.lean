import CreationGate.Evm.Journal

/-!
# Frames

Running code in a frame.  The code has no jumps, so a frame walks down its instructions; a
creation inside it opens a frame one level deeper.
-/

namespace CreationGate

/-- What happened while a transaction ran. -/
structure Tally where
  /-- The instructions begun, in all frames. -/
  steps : Nat := 0
  calls : Nat := 0
  creates : Nat := 0
  /-- The outcome of each finished creation, inner ones first. -/
  created : List (Option Address) := []
deriving DecidableEq

/-- What frames share. -/
structure Host where
  journal : Journal
  tally : Tally := {}

namespace Host

/-- Counts an instruction. -/
def countStep (host : Host) : Host :=
  { host with tally := { host.tally with steps := host.tally.steps + 1 } }

/-- Counts a call frame, also one that does not get to run. -/
def countCall (host : Host) : Host :=
  { host with tally := { host.tally with calls := host.tally.calls + 1 } }

/-- Counts a creation, also one that does not get to run. -/
def countCreate (host : Host) : Host :=
  { host with tally := { host.tally with creates := host.tally.creates + 1 } }

/-- Notes the outcome of a creation behind those that were finished before it. -/
def noteCreated (host : Host) (address : Option Address) : Host :=
  { host with tally := { host.tally with created := host.tally.created ++ [address] } }

end Host

/-- How a frame ended and what it leaves to its opener. -/
structure FrameResult where
  finish : Finish
  output : Bytes := []
  gas : Nat
  refund : Int := 0
  address : Option Address := none

/-- How an opener has a creation done. -/
abbrev Creator := Journal.CreateRequest → Host → FrameResult × Host

/-- Where a frame runs. -/
structure FrameContext where
  config : Config
  address : Address

/-- What one instruction leads to. -/
inductive Progress where
  | next (m : Machine) (host : Host)
  | done (finish : Finish) (output : Bytes) (m : Machine) (host : Host)

namespace Progress

/-- An instruction that goes on with a new machine, unless it fails. -/
def ofMachine (m : Machine) (host : Host) : Except HaltReason Machine → Progress
  | .ok m' => next m' host
  | .error reason => done (.halted reason) [] m host

/-- An instruction that ends the frame with an output, unless it fails. -/
def ofOutput (m : Machine) (host : Host) (finish : Finish) :
    Except HaltReason (Bytes × Machine) → Progress
  | .ok (output, m') => done finish output m' host
  | .error reason => done (.halted reason) [] m host

end Progress

namespace Machine

/-- Writes a slot.  The slot is read before any gas is looked at, so it stays read even if the
frame cannot pay for the write. -/
def sstore (m : Machine) (host : Host) (address : Address) : Progress :=
  match m.pop2 with
  | .error reason => .done (.halted reason) [] m host
  | .ok (slot, value, m') =>
    let (s, warm, journal) := host.journal.loadSlot address slot
    let read := { host with journal := journal }
    if m'.gas ≤ Gas.callStipend then .done (.halted .reentrancySentry) [] m read
    else
      let price := Gas.store s.initial s.present value + (if warm then 0 else Gas.coldSlot)
      match m'.charge price with
      | .error reason => .done (.halted reason) [] m read
      | .ok m' =>
        .next { m' with refund := m'.refund + Gas.storeRefund s.initial s.present value }
          { host with journal := journal.writeSlot address slot value }

/-- Takes a creation off the stack and pays for it; all but a 64th of the gas left goes to the
new frame. -/
def takeCreation (m : Machine) (context : FrameContext) (salted : Bool) :
    Except HaltReason (Journal.CreateRequest × Machine) := do
  let (value, offset, length, m) ← m.pop3
  let length ← index length
  let limited := context.config.spec.includes .shanghai && length != 0
  if limited && context.config.maxInitCodeSize < length then throw .initCodeSizeLimit
  let m ← m.charge (if limited then Gas.initCode length else 0)
  let (initCode, m) ← m.readRange offset length
  let (salt, m) ← if salted then do
      let (salt, m) ← m.pop
      pure (some salt, m)
    else pure (none, m)
  let m ← m.charge (Gas.create + if salted then Gas.saltedHash length else 0)
  let gas := m.gas - m.gas / 64
  let m ← m.charge gas
  return (⟨context.address, value.toNat, initCode, salt, gas⟩, m)

/-- Goes on after a creation: pushes the new address, or zero if there is none. -/
def resume (m : Machine) (result : FrameResult) : Except HaltReason Machine :=
  let m := { m with
    returnData := if result.finish = Finish.reverted then result.output else []
    gas := m.gas + if result.finish.keepsGas then result.gas else 0
    refund := m.refund + if result.finish.isSuccess then result.refund else 0 }
  match result.finish.isSuccess, result.address with
  | true, some address => m.push (Word.ofBytes address.bytes)
  | _, _ => m.push 0

/-- Pays for a creation, has it done, and goes on with its outcome. -/
def createContract (m : Machine) (host : Host) (context : FrameContext) (create : Creator)
    (salted : Bool) : Progress :=
  match m.takeCreation context salted with
  | .error reason => .done (.halted reason) [] m host
  | .ok (request, m') =>
    let (result, host) := create request host
    .ofMachine m' host (m'.resume result)

/-- Carries out one instruction. -/
def step (m : Machine) (host : Host) (context : FrameContext) (create : Creator) :
    Instruction → Progress
  | .stop => .done .stopped [] m host
  | .add => .ofMachine m host m.add
  | .pop => .ofMachine m host m.drop
  | .mstore => .ofMachine m host m.mstore
  | .mstore8 => .ofMachine m host m.mstore8
  | .push immediate => .ofMachine m host (m.pushImmediate context.config.spec immediate)
  | .sstore => m.sstore host context.address
  | .create => m.createContract host context create false
  | .create2 => m.createContract host context create true
  | .ret => .ofOutput m host .returned m.output
  | .revert => .ofOutput m host .reverted m.output
  | .invalid => .done (.halted .invalidOpcode) [] m host
  | .unknown _ => .done (.halted .opcodeNotFound) [] m host

/-- Carries out instructions up to the end of the frame; the end of the code is a stop. -/
def run (m : Machine) (host : Host) (context : FrameContext) (create : Creator) :
    List Instruction → Finish × Bytes × Machine × Host
  | [] => (.stopped, [], m, host.countStep)
  | instruction :: rest =>
    match m.step host.countStep context create instruction with
    | .next m host => m.run host context create rest
    | .done finish output m host => (finish, output, m, host)

end Machine

namespace Frame

/-- Whether returned code may be deployed, and the gas left once it is paid for. -/
def deposit (config : Config) (code : Bytes) (gas : Nat) : Except HaltReason Nat :=
  if code.head? = some 0xef then .error .reservedCode
  else if config.maxCodeSize < code.length then .error .codeSizeLimit
  else if gas < Gas.codeDeposit * code.length then .error .outOfGas
  else .ok (gas - Gas.codeDeposit * code.length)

/-- Ends the frame of a creation: the output becomes the code, or the accounts go back to
what they were. -/
def finishCreation (config : Config) (address : Address) (earlier : Journal)
    (finish : Finish) (output : Bytes) (m : Machine) (host : Host) : FrameResult × Host :=
  let undone := { host with journal := host.journal.restore earlier }
  if finish.isSuccess then
    match deposit config output m.gas with
    | .ok gas =>
      let journal := host.journal.update address fun live =>
        { live with info := live.info.withCode output }
      (⟨.returned, output, gas, m.refund, some address⟩,
        { host with journal := journal }.noteCreated (some address))
    | .error reason => (⟨.halted reason, output, m.gas, m.refund, none⟩, undone.noteCreated none)
  else (⟨finish, output, m.gas, m.refund, none⟩, undone.noteCreated none)

/-- Creates a contract; `depth` frames may still be opened. -/
def create (config : Config) : (depth : Nat) → Creator
  | 0, request, host =>
    (⟨.halted .callTooDeep, [], request.gas, 0, none⟩, host.countCreate.noteCreated none)
  | depth + 1, request, host =>
    let host := host.countCreate
    match host.journal.startCreation request with
    | .refused finish journal =>
      (⟨finish, [], request.gas, 0, none⟩, { host with journal := journal }.noteCreated none)
    | .started address earlier journal =>
      let m : Machine := { gas := request.gas }
      -- What the initialization code creates in turn is one level deeper.
      let (finish, output, m, host) := m.run { host with journal := journal } ⟨config, address⟩
        (create config depth) (disassemble request.initCode)
      finishCreation config address earlier finish output m host

/-- How many frames may be open at once. -/
def maxDepth : Nat := 1025

/-- The code that a call to an address runs: its own, or that of the address it delegates
to, one hop far. -/
def codeToRun (journal : Journal) (target : Address) : Bytes × Journal :=
  let (_, code, journal) := journal.loadCode target
  match delegate? code with
  | none => (code, journal)
  | some address =>
    let (_, code, journal) := journal.loadCode address
    (code, journal)

/-- Runs the first frame of a call.  No instruction reads the data of the call, so none is handed
over.  Code that fails leaves the accounts as they were before the value was moved. -/
def call (config : Config) (caller target : Address) (value gas : Nat) (host : Host) :
    FrameResult × Host :=
  let host := host.countCall
  let earlier := host.journal
  match earlier.transfer caller target value with
  | (some reason, journal) =>
    (⟨.halted reason, [], gas, 0, none⟩, { host with journal := journal })
  | (none, journal) =>
    -- No address stands for a built-in function, so what runs is decided by the code alone.
    let (code, journal) := codeToRun journal target
    if code.isEmpty then (⟨.stopped, [], gas, 0, none⟩, { host with journal := journal })
    else
      let m : Machine := { gas := gas }
      let (finish, output, m, host) := m.run { host with journal := journal } ⟨config, target⟩
        (create config (maxDepth - 1)) (disassemble code)
      let host := if finish.isSuccess then host
        else { host with journal := host.journal.restore earlier }
      (⟨finish, output, m.gas, m.refund, none⟩, host)

end Frame

end CreationGate
