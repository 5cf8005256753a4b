/-
The controller: a manager thread, the channel threads, and the debug
interface through which a processor gives them instructions.

The manager has no program of its own. It executes what the debug
interface hands it: a start of a channel, or a kill that clears its
fault. A channel takes only a kill that way. Channels run one after the
other, each for its whole slice.
-/
import DmaController.Controller.Execute
import DmaController.Register.Layout

namespace DmaController

/-- Where the manager is in its life. Its fault register collects causes
until it is killed. -/
inductive ManagerState where
  | stopped
  | faulting (causes : UInt32)
  deriving DecidableEq

namespace ManagerState

/-- The code of a status in the manager status register. -/
def code : ManagerState → Nat
  | stopped => 0x0
  | faulting _ => 0xf

/-- The content of the fault register. -/
def faultBits : ManagerState → UInt32
  | stopped => 0
  | faulting causes => causes

/-- The manager after an instruction of the debug interface faulted. -/
def fault (state : ManagerState) (cause : ManagerFault) : ManagerState :=
  faulting (state.faultBits ||| cause.flag ||| ManagerFault.debugInstr.flag)

end ManagerState

/-- A controller. -/
structure Controller where
  capability : Capability
  manager : ManagerState
  channels : List Channel
  /-- The two halves of the next debug instruction. -/
  debugInst0 : UInt32
  debugInst1 : UInt32
  interruptEnable : UInt32
  /-- The pending events, one bit each. -/
  events : UInt32
  /-- The debug interface does not answer. -/
  halted : Bool
  deriving DecidableEq

namespace Controller

/-- A controller after reset. -/
def new (cap : Capability) : Controller where
  capability := cap
  manager := .stopped
  channels := List.replicate cap.numChannels.toNat {}
  debugInst0 := 0
  debugInst1 := 0
  interruptEnable := 0
  events := 0
  halted := false

/-- Keeps the debug interface busy, as in a controller that stopped
responding, or lets it go again. -/
def setHalted (c : Controller) (halted : Bool) : Controller :=
  { c with halted }

def setChannel (c : Controller) (n : Nat) (ch : Channel) : Controller :=
  { c with channels := c.channels.set n ch }

/-- The controller after its manager faulted. -/
def managerFault (c : Controller) (cause : ManagerFault) : Controller :=
  { c with manager := c.manager.fault cause }

-- ===================================================== debug interface

/-- The debug instruction is for a channel, not for the manager. -/
def debugIsForChannel (c : Controller) : Bool :=
  Register.DebugInstruction.channelThread.isSet c.debugInst0

/-- The channel a debug instruction is for. -/
def debugChannel (c : Controller) : Nat :=
  Register.DebugInstruction.channel.get c.debugInst0

/-- The debug instruction in the two halves. -/
def debugInstruction (c : Controller) : Except DecodeError Instruction :=
  Instruction.decode
    (UInt8.ofNat (Register.DebugInstruction.byte0.get c.debugInst0) ::
      UInt8.ofNat (Register.DebugInstruction.byte1.get c.debugInst0) ::
      Word.bytes32 c.debugInst1)

/-- Executes a debug instruction on a channel. Only a kill does
anything, and only to a channel that is not stopped. -/
def channelCommand (c : Controller) (n : Nat) (i : Instruction) : Controller :=
  match c.channels[n]? with
  | none => c
  | some ch => if i = .kill ∧ ch.status ≠ .stopped then c.setChannel n ch.killed else c

/-- Executes a debug instruction on the manager. A start that comes from
the non-secure side has to be a non-secure start; a start of a channel
that is not stopped is ignored. -/
def managerCommand (c : Controller) (window : Security) (i : Instruction) : Controller :=
  match i with
  | .go channel pc nonSecure =>
    if window = .nonSecure ∧ !nonSecure then
      c.managerFault .startError
    else
      match c.channels[channel.toNat]? with
      | none => c.managerFault .operandInvalid
      | some ch =>
        if ch.status = .stopped then c.setChannel channel.toNat (.started pc nonSecure) else c
  | .kill => { c with manager := .stopped }
  | _ => c.managerFault .undefInstr

/-- Executes the debug instruction, given through one of the register
windows. -/
def command (c : Controller) (window : Security) : Controller :=
  if c.halted then
    c
  else
    match c.debugInstruction with
    | .error _ => if c.debugIsForChannel then c else c.managerFault .undefInstr
    | .ok i =>
      if c.debugIsForChannel then c.channelCommand c.debugChannel i
      else c.managerCommand window i

-- ============================================================== running

/-- Runs channels one after the other, each for a slice of at most
`steps` ticks. -/
def runChannels (cap : Capability) (steps : Nat) :
    List Channel → Shared → List Channel × Shared
  | [], shared => ([], shared)
  | ch :: rest, shared =>
    let (ch, shared) := ch.run cap steps shared
    let (rest, shared) := runChannels cap steps rest shared
    (ch :: rest, shared)

/-- Runs every channel for a slice of at most `steps` ticks. -/
def run (c : Controller) (memory : Memory) (steps : Nat) : Controller × Memory :=
  let (channels, shared) := runChannels c.capability steps c.channels ⟨c.events, memory⟩
  ({ c with channels, events := shared.events }, shared.memory)

end Controller

end DmaController
