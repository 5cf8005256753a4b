/-
A driver of one controller: where its registers are, how long it waits,
and the few conversations everything else is made of.

An address of a register is a sum, and a sum that passes the end of the
address space makes the program panic: when the driver is set up
(`DriverConfig.driver?`), and when it asks for a register (`Driver.on`).

Every wait is a `poll`: look, and if what is seen is not yet right, let
a millisecond pass and look again, a bounded number of times. An
instruction reaches a thread through the debug interface, in three
writes that follow each other once the interface is idle.
-/
import DmaController.Bus.Dialogue
import DmaController.Driver.Thread
import DmaController.Instruction.Text
import DmaController.Microprogram.Build
import DmaController.Register.Fault
import DmaController.Register.Layout
import DmaController.Register.Map

namespace DmaController

open Bus (Dialogue)

-- ============================================================== errors

/-- Why a driver did not do what it was asked. -/
inductive DriverError where
  | busy (thread : Thread) (state : ThreadState)
  /-- The thread faulted at `pc`, which is `offset` bytes into the
  program if one was started there. -/
  | fault (thread : Thread) (pc : UInt32) (offset : Option UInt32) (causes : FaultRegister)
  | timeout (thread : Thread) (state : ThreadState) (waitedMs : UInt32)
  | debugTimeout (timeoutMs : UInt32)
  | invalidState (thread : Thread)
  | notChannel
  | channelOutOfRange (channel count : UInt8)
  | unknownPeriphId (id : UInt32)
  | unknownComponentId (id : UInt32)
  deriving DecidableEq

def DriverError.message : DriverError → String
  | .busy thread state => s!"{thread.text} is busy in state {state.name}"
  | .fault thread pc _ causes => s!"{thread.text} faulted at {Text.hex pc.toNat}: {causes.text}"
  | .timeout thread state waitedMs =>
    s!"{thread.text} is still {state.name} after {waitedMs} ms"
  | .debugTimeout timeoutMs => s!"DMAC halted: debug interface busy for {timeoutMs} ms"
  | .invalidState thread => s!"{thread.text} reports an invalid state"
  | .notChannel => "Programs can only be started on a channel thread"
  | .channelOutOfRange channel count => s!"Channel {channel} is not in [0, {count})"
  | .unknownPeriphId id => s!"Unknown peripheral id {Text.hex id.toNat}"
  | .unknownComponentId id => s!"Unknown component id {Text.hex id.toNat}"

/-- A conversation of a driver with its controller. -/
abbrev Drive := Dialogue DriverError

-- ============================================================= drivers

/-- How a driver is set up. -/
structure DriverConfig where
  variant : Variant := .pl330
  /-- The bus address of the controller. -/
  base : UInt64
  /-- The register window to use. -/
  security : Security := .secure
  /-- How long the debug interface may take to accept an instruction. -/
  debugTimeoutMs : UInt32 := 100
  /-- How long a thread may take to settle before it is started or
  killed. -/
  settleTimeoutMs : UInt32 := 100
  deriving DecidableEq

/-- A driver of one controller. -/
structure Driver where
  capability : Capability
  /-- The bus address of the register window in use. -/
  registers : UInt64
  security : Security
  debugTimeoutMs : UInt32
  settleTimeoutMs : UInt32
  deriving DecidableEq

/-- The driver of a configuration, if its registers have an address
(`DriverConfig.driver?`). -/
def DriverConfig.driver (config : DriverConfig) : Driver :=
  let cap := config.variant.capability
  { capability := cap
    registers := config.base + cap.window config.security
    security := config.security
    debugTimeoutMs := config.debugTimeoutMs
    settleTimeoutMs := config.settleTimeoutMs }

/-- The driver of a configuration, unless the program panics over the
address of its registers. -/
def DriverConfig.driver? (config : DriverConfig) : Option Driver :=
  (Word.add64? config.base (config.variant.capability.window config.security)).map
    fun registers => { config.driver with registers }

/-- Looks until what is seen is accepted, letting a millisecond pass
after each look but the last. After `patience` milliseconds it gives up
on what it saw last. -/
def poll {ε α : Type} (look : Dialogue ε α) (accept : α → Bool) (giveUp : α → Dialogue ε α) :
    (patience : Nat) → Dialogue ε α
  | 0 => do
    let seen ← look
    if accept seen then return seen
    giveUp seen
  | patience + 1 => do
    let seen ← look
    if accept seen then return seen
    Dialogue.delay 1
    poll look accept giveUp patience

namespace Driver

def read (d : Driver) (register : UInt64) : Drive UInt32 :=
  Dialogue.read32 (d.registers + register)

def write (d : Driver) (register : UInt64) (value : UInt32) : Drive Unit :=
  Dialogue.write32 (d.registers + register) value

/-- The address of a query passed the end of the address space when it was
added up: a sum that is less than what was added to. -/
def overflows (d : Driver) (query : Bus.Query) : Bool :=
  query.address?.any (· < d.registers)

/-- A platform as the driver meets it: the program panics over an address
of the driver before the platform is asked. -/
def on {σ : Type} (d : Driver) (p : Bus.Platform σ) : Bus.Platform σ where
  answer := p.answer
  remarks := p.remarks
  stops query s := d.overflows query || p.stops query s

/-- Builds a program for this controller. -/
def build (d : Driver) (req : Request) (buffer : ProgramBuffer) : Build :=
  req.build d.capability buffer

/-- Builds a program that clears memory, to run in the security state of
the window in use. -/
def buildZeroFill (d : Driver) (destination size : UInt32) (buffer : ProgramBuffer) : Build :=
  d.capability.buildZeroFill destination size d.security buffer

-- ===================================================== debug interface

/-- The debug interface is busy. -/
def isBusy (status : UInt32) : Bool :=
  status &&& 1 != 0

/-- Waits until the debug interface is idle. -/
def awaitDebugIdle (d : Driver) : Drive Unit := do
  let halted := fun _ => do
    Dialogue.say (.error s!"{d.capability.name}: DMAC halted")
    Dialogue.fail (.debugTimeout d.debugTimeoutMs)
  let _ ← poll (d.read Register.dbgstatus) (fun status => !isBusy status) halted
    d.debugTimeoutMs.toNat

/-- The first half of a debug instruction: the thread it is for, and its
first two bytes. -/
def debugInst0 (i : Instruction) (thread : Thread) : UInt32 :=
  let word : UInt32 := 0
  let word :=
    match thread with
    | .manager => word
    | .channel number =>
      Register.DebugInstruction.channel.set number.toNat
        (Register.DebugInstruction.channelThread.setFlag true word)
  let word := Register.DebugInstruction.byte0.set (i.encode.getD 0 0).toNat word
  Register.DebugInstruction.byte1.set (i.encode.getD 1 0).toNat word

/-- The second half: the other four bytes, zero where the instruction is
shorter. -/
def debugInst1 (i : Instruction) : UInt32 :=
  Word.ofBytes32 (i.encode.getD 2 0) (i.encode.getD 3 0) (i.encode.getD 4 0) (i.encode.getD 5 0)

/-- Executes one instruction on a thread. -/
def execute (d : Driver) (i : Instruction) (thread : Thread) : Drive Unit := do
  Dialogue.say i.emission
  d.awaitDebugIdle
  d.write Register.dbginst0 (debugInst0 i thread)
  d.write Register.dbginst1 (debugInst1 i)
  Dialogue.say (.trace s!"{d.capability.name}: {thread.text}: debug {i.text}")
  d.write Register.dbgcmd 0

-- ============================================================= threads

/-- The state a thread reports now. -/
def state (d : Driver) (thread : Thread) : Drive ThreadState := do
  let status ←
    match thread with
    | .manager => d.read Register.dsr
    | .channel number => d.read (Register.csr number)
  return .ofStatus thread status

/-- The program counter of a thread. -/
def programCounter (d : Driver) (thread : Thread) : Drive UInt32 :=
  match thread with
  | .manager => d.read Register.dpc
  | .channel number => d.read (Register.cpc number)

/-- The fault register and the program counter of a faulting thread. -/
def faultInfo (d : Driver) (thread : Thread) : Drive (FaultRegister × UInt32) := do
  let fault ←
    match thread with
    | .manager => FaultRegister.manager <$> d.read Register.ftrd
    | .channel number => FaultRegister.channel <$> d.read (Register.ftr number)
  let pc ← d.programCounter thread
  return (fault, pc)

/-- How long to wait for a thread. -/
inductive Patience where
  | millis (ms : UInt32)
  | unbounded

/-- The number of looks a wait without a bound is written down for, one
a millisecond: more than half a billion years of them. A dialogue has an
end, and a wait for something that never comes has none; the timeout in
which it ends here stands for going on, and no driver reports it. -/
def forever : Nat := UInt64.size

/-- Waits for a thread to reach a state. -/
def awaitState (d : Driver) (thread : Thread) (accept : ThreadState → Bool) :
    Patience → Drive ThreadState
  | .millis ms =>
    poll (d.state thread) accept (fun last => Dialogue.fail (.timeout thread last ms)) ms.toNat
  | .unbounded =>
    poll (d.state thread) accept
      (fun last => Dialogue.fail (.timeout thread last (UInt32.ofNat (UInt32.size - 1)))) forever

/-- Waits for a thread to reach a state it should be in soon. -/
def settle (d : Driver) (thread : Thread) (accept : ThreadState → Bool) : Drive ThreadState :=
  d.awaitState thread accept (.millis d.settleTimeoutMs)

end Driver

end DmaController
