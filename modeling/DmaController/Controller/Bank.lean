/-
The controller as a register file. A thread keeps its status, its fault
register and the event it waits for each in a place of its own, and
nothing but what the transitions write keeps them in step: one that
forgot the fault register would leave a fault behind that nobody has.

`Channel` and `ManagerState` have one value where the register file has
three, so that such a state does not exist there. Here every transition
is written out over the register file instead, with each register it sets
and each it leaves alone. A step can give up on the way; what it wrote by
then stays written.
-/
import DmaController.Controller.Registers

namespace DmaController

-- ============================================================== banks

namespace StatusCode

/-! The codes of the states in a status register. -/

def stopped : UInt8 := 0x0
def executing : UInt8 := 0x1
def waiting : UInt8 := 0x4
def killing : UInt8 := 0x8
def completing : UInt8 := 0x9
def faultCompleting : UInt8 := 0xe
def faulting : UInt8 := 0xf

end StatusCode

/-- The registers of a channel. Right after reset everything is zero. -/
structure ChannelBank where
  status : UInt8 := 0
  pc : UInt32 := 0
  source : UInt32 := 0
  destination : UInt32 := 0
  control : Register.ChannelControl := ⟨0⟩
  /-- The loop counters hold the rounds that are left, minus one. -/
  counter0 : UInt8 := 0
  counter1 : UInt8 := 0
  /-- The fault register. -/
  fault : UInt32 := 0
  nonSecure : Bool := false
  /-- The last awaited peripheral request was a burst. -/
  servesBurst : Bool := false
  /-- The event of the last wait. -/
  event : UInt8 := 0
  /-- The channel's data in the buffer, the oldest byte first. -/
  mfifo : List UInt8 := []
  deriving DecidableEq

/-- The registers of the manager. -/
structure ManagerBank where
  status : UInt8 := 0
  pc : UInt32 := 0
  /-- The fault register. -/
  fault : UInt32 := 0
  deriving DecidableEq

/-- The registers of a channel and what it shares with the others. -/
structure ChannelBank.View where
  bank : ChannelBank
  shared : Shared

/-- A step on a view. It may end in a fault, with the view as it was left
by then. -/
abbrev ChannelBank.Step (α : Type) :=
  ExceptT ChannelFault (StateM ChannelBank.View) α

namespace ChannelBank

/-- The outcome of a step and the view it leaves. -/
def Step.outcome {α : Type} (step : Step α) (view : View) : Except ChannelFault α × View :=
  step.run view

-- =============================================================== data

/-- Changes registers of the channel. -/
def update (change : ChannelBank → ChannelBank) : Step Unit :=
  modify fun view => { view with bank := change view.bank }

def setEvents (change : UInt32 → UInt32) : Step Unit :=
  modify fun view => { view with shared := { view.shared with events := change view.shared.events } }

def setMemory (memory : Memory) : Step Unit :=
  modify fun view => { view with shared := { view.shared with memory } }

def counter (b : ChannelBank) : LoopCounter → UInt8
  | .zero => b.counter0
  | .one => b.counter1

def setCounter (b : ChannelBank) (counter : LoopCounter) (value : UInt8) : ChannelBank :=
  match counter with
  | .zero => { b with counter0 := value }
  | .one => { b with counter1 := value }

/-- The registers after a block left the source side. -/
def advanceSource (b : ChannelBank) (length : Nat) : ChannelBank :=
  if Register.ChannelControl.sourceIncrement.isSet b.control.word then
    { b with source := b.source + UInt32.ofNat length }
  else
    b

/-- The registers after a block reached the destination side. -/
def advanceDestination (b : ChannelBank) (length : Nat) : ChannelBank :=
  if Register.ChannelControl.destinationIncrement.isSet b.control.word then
    { b with destination := b.destination + UInt32.ofNat length }
  else
    b

/-- The bytes in groups of two to the power of the swap field, each group
reversed. -/
def swapEndian (swap : Nat) (data : List UInt8) : List UInt8 :=
  if swap = 0 then data else Channel.reverseGroups (1 <<< swap) data

/-- Reads one source burst into the buffer. -/
def load (cap : Capability) : Step Unit := do
  let view ← get
  let length := view.bank.control.sourceBurstBytes
  if cap.mfifoBytes.toNat < view.bank.mfifo.length + length then
    throw .mfifoError
  else
    match view.shared.memory.read view.bank.source.toUInt64 length with
    | .error _ => throw .readError
    | .ok block => update fun b => { b with mfifo := b.mfifo ++ block }.advanceSource length

/-- Writes one destination burst from the buffer. The block is taken out
before it is known whether it can be written. -/
def store : Step Unit := do
  let view ← get
  let length := view.bank.control.destinationBurstBytes
  if view.bank.mfifo.length < length then
    throw .storeDataUnavailable
  else
    let swap := Register.ChannelControl.endianSwap.get view.bank.control.word
    let block := swapEndian swap (view.bank.mfifo.take length)
    update fun b => { b with mfifo := b.mfifo.drop length }
    match view.shared.memory.write view.bank.destination.toUInt64 block with
    | .error _ => throw .writeError
    | .ok memory =>
      setMemory memory
      update fun b => b.advanceDestination length

/-- Writes one destination burst of zeros. -/
def storeZero : Step Unit := do
  let view ← get
  let length := view.bank.control.destinationBurstBytes
  match view.shared.memory.fill view.bank.destination.toUInt64 length 0 with
  | .error _ => throw .writeError
  | .ok memory =>
    setMemory memory
    update fun b => b.advanceDestination length

-- ========================================================== executing

def checkPeriph (cap : Capability) (periph : UInt8) : Step Unit :=
  if cap.numPeriph ≤ periph then throw .periphError else pure ()

def checkEvent (cap : Capability) (event : UInt8) : Step Unit :=
  if cap.numEvents ≤ event then throw .eventError else pure ()

/-- The instruction at the program counter. -/
def fetch : Step Instruction := do
  let view ← get
  match Instruction.decode
      (view.shared.memory.readAvailable view.bank.pc.toUInt64 Instruction.maxLength) with
  | .ok i => pure i
  | .error (.truncated ..) => throw .fetchError
  | .error (.unknownOpcode _) => throw .undefInstr
  | .error (.invalidOperand ..) => throw .operandInvalid

/-- Takes an action if a condition holds of the kind of request that is
served. -/
def ifServes (holds : Bool → Bool) (action : Step Unit) : Step Unit := do
  let view ← get
  if holds view.bank.servesBurst then action else pure ()

/-- Goes on behind an instruction. -/
def pass (i : Instruction) : Step Unit :=
  update fun b => { b with pc := b.pc + UInt32.ofNat i.length }

/-- Carries out an instruction. -/
def carryOut (cap : Capability) (i : Instruction) : Step Unit :=
  match i with
  | .finish => update fun b => { b with status := StatusCode.completing }
  | .kill => update fun b => { b with status := StatusCode.killing }
  | .nop | .rmb | .wmb => pass i
  | .flushp periph => do
    checkPeriph cap periph
    pass i
  | .mov .sourceAddress value => do
    update fun b => { b with source := value }
    pass i
  | .mov .destinationAddress value => do
    update fun b => { b with destination := value }
    pass i
  | .mov .channelControl value => do
    let view ← get
    if view.bank.nonSecure && !Register.ChannelControl.isNonSecureBoth ⟨value⟩ then
      throw .securityError
    else
      update fun b => { b with control := ⟨value⟩ }
      pass i
  | .addh .source amount => do
    update fun b => { b with source := b.source + amount.toUInt32 }
    pass i
  | .addh .destination amount => do
    update fun b => { b with destination := b.destination + amount.toUInt32 }
    pass i
  | .lp counter iterations => do
    update fun b => b.setCounter counter (iterations - 1).toUInt8
    pass i
  | .lpend counter condition jump => do
    let view ← get
    if condition.holds view.bank.servesBurst ∧ view.bank.counter counter ≠ 0 then
      update fun b => b.setCounter counter (b.counter counter - 1)
      update fun b => { b with pc := b.pc - jump.toUInt32 }
    else
      pass i
  | .ld condition => do
    ifServes condition.holds (load cap)
    pass i
  | .ldp kind periph => do
    checkPeriph cap periph
    ifServes kind.holds (load cap)
    pass i
  | .st condition => do
    ifServes condition.holds store
    pass i
  | .stp kind periph => do
    checkPeriph cap periph
    ifServes kind.holds store
    pass i
  | .stz => do
    storeZero
    pass i
  | .wfp awaited periph => do
    checkPeriph cap periph
    update fun b => { b with servesBurst := awaited != AwaitedRequest.single }
    pass i
  | .sev event => do
    checkEvent cap event
    setEvents fun events => events ||| Channel.eventBit event
    pass i
  | .wfe event _ => do
    checkEvent cap event
    let view ← get
    if Channel.isPending view.shared.events event then
      setEvents fun events => events &&& ~~~Channel.eventBit event
      pass i
    else
      update fun b => { b with event }
      update fun b => { b with status := StatusCode.waiting }
  | .go .. => throw .undefInstr

/-- Executes the instruction at the program counter. -/
def execute (cap : Capability) : Step Unit := do
  let i ← fetch
  carryOut cap i

/-- Advances a channel by one instruction or one change of state, and
says whether another tick may move it further. -/
def tick (cap : Capability) (view : View) : View × Bool :=
  let b := view.bank
  if b.status = StatusCode.completing ∨ b.status = StatusCode.killing then
    ({ view with bank := { b with status := StatusCode.stopped, mfifo := [] } }, false)
  else if b.status = StatusCode.faultCompleting then
    ({ view with bank := { b with status := StatusCode.faulting } }, false)
  else if b.status = StatusCode.executing then
    match (execute cap).outcome view with
    | (.ok _, left) => (left, true)
    | (.error cause, left) =>
      ({ left with
          bank := { left.bank with
            fault := cause.flag
            status := StatusCode.faultCompleting
            mfifo := [] } }, true)
  else if b.status = StatusCode.waiting then
    if Channel.isPending view.shared.events b.event then
      ({ bank := { b with pc := b.pc + 2, status := StatusCode.executing }
         shared := { view.shared with
           events := view.shared.events &&& ~~~Channel.eventBit b.event } }, true)
    else
      (view, false)
  else
    (view, false)

/-- Runs a channel for a slice of at most `steps` ticks. -/
def run (cap : Capability) : (steps : Nat) → View → View
  | 0, view => view
  | steps + 1, view =>
    let (view, progress) := tick cap view
    if progress then run cap steps view else view

end ChannelBank

-- ===================================================== the controller

/-- The register file of a controller. -/
structure ControllerBank where
  capability : Capability
  manager : ManagerBank
  channels : List ChannelBank
  /-- The two halves of the next debug instruction. -/
  debugInst0 : UInt32
  debugInst1 : UInt32
  interruptEnable : UInt32
  /-- The pending events, one bit each. -/
  events : UInt32
  /-- The debug interface does not answer. -/
  halted : Bool
  deriving DecidableEq

namespace ControllerBank

/-- The register file after reset. -/
def new (cap : Capability) : ControllerBank where
  capability := cap
  manager := {}
  channels := List.replicate cap.numChannels.toNat {}
  debugInst0 := 0
  debugInst1 := 0
  interruptEnable := 0
  events := 0
  halted := false

def setHalted (c : ControllerBank) (halted : Bool) : ControllerBank :=
  { c with halted }

def setChannel (c : ControllerBank) (n : Nat) (b : ChannelBank) : ControllerBank :=
  { c with channels := c.channels.set n b }

/-- The cause of a fault of the manager joins those that are there. -/
def managerFault (c : ControllerBank) (cause : ManagerFault) : ControllerBank :=
  { c with
    manager := { c.manager with
      fault := c.manager.fault ||| (cause.flag ||| ManagerFault.debugInstr.flag)
      status := StatusCode.faulting } }

/-- The debug instruction is for a channel, not for the manager. -/
def debugIsForChannel (c : ControllerBank) : Bool :=
  Register.DebugInstruction.channelThread.isSet c.debugInst0

/-- The channel a debug instruction is for. -/
def debugChannel (c : ControllerBank) : Nat :=
  Register.DebugInstruction.channel.get c.debugInst0

/-- The debug instruction in the two halves. -/
def debugInstruction (c : ControllerBank) : Except DecodeError Instruction :=
  Instruction.decode
    (UInt8.ofNat (Register.DebugInstruction.byte0.get c.debugInst0) ::
      UInt8.ofNat (Register.DebugInstruction.byte1.get c.debugInst0) ::
      Word.bytes32 c.debugInst1)

/-- Executes a debug instruction on a channel. A kill clears the fault
register. -/
def channelCommand (c : ControllerBank) (n : Nat) (i : Instruction) : ControllerBank :=
  match c.channels[n]? with
  | none => c
  | some b =>
    if i = .kill ∧ b.status ≠ StatusCode.stopped then
      c.setChannel n { b with status := StatusCode.killing, fault := 0, mfifo := [] }
    else
      c

/-- Executes a debug instruction on the manager. A start resets the
registers of the channel, a kill clears the fault register. -/
def managerCommand (c : ControllerBank) (window : Security) (i : Instruction) : ControllerBank :=
  match i with
  | .go channel pc nonSecure =>
    if window = .nonSecure ∧ !nonSecure then
      c.managerFault .startError
    else
      match c.channels[channel.toNat]? with
      | none => c.managerFault .operandInvalid
      | some b =>
        if b.status ≠ StatusCode.stopped then
          c
        else
          c.setChannel channel.toNat { status := StatusCode.executing, pc, nonSecure }
  | .kill => { c with manager := { c.manager with status := StatusCode.stopped, fault := 0 } }
  | _ => c.managerFault .undefInstr

/-- Executes the debug instruction, given through one of the register
windows. -/
def command (c : ControllerBank) (window : Security) : ControllerBank :=
  if c.halted then
    c
  else
    match c.debugInstruction with
    | .error _ => if c.debugIsForChannel then c else c.managerFault .undefInstr
    | .ok i =>
      if c.debugIsForChannel then c.channelCommand c.debugChannel i
      else c.managerCommand window i

/-- Runs channels one after the other, each for a slice of at most
`steps` ticks. -/
def runChannels (cap : Capability) (steps : Nat) :
    List ChannelBank → Shared → List ChannelBank × Shared
  | [], shared => ([], shared)
  | b :: rest, shared =>
    let view := ChannelBank.run cap steps ⟨b, shared⟩
    let (rest, shared) := runChannels cap steps rest view.shared
    (view.bank :: rest, shared)

/-- Runs every channel for a slice of at most `steps` ticks. -/
def run (c : ControllerBank) (memory : Memory) (steps : Nat) : ControllerBank × Memory :=
  let (channels, shared) := runChannels c.capability steps c.channels ⟨c.events, memory⟩
  ({ c with channels, events := shared.events }, shared.memory)

-- ========================================================== registers

/-- The faulting channels, one bit each. -/
def faultingChannels (c : ControllerBank) : UInt32 :=
  c.channels.zipIdx.foldl (fun word b =>
    if b.1.status = StatusCode.faulting then word ||| ((1 : UInt32) <<< UInt32.ofNat b.2)
    else word) 0

/-- The registers that do not belong to a channel. -/
def fixedRegister? (c : ControllerBank) (offset : UInt64) : Option UInt32 :=
  if offset = Register.dsr then
    some (Register.ManagerStatus.status.set c.manager.status.toNat 0)
  else if offset = Register.dpc then some c.manager.pc
  else if offset = Register.inten then some c.interruptEnable
  else if offset = Register.intEventRis then some c.events
  else if offset = Register.intmis then some (c.events &&& c.interruptEnable)
  else if offset = Register.fsrd then
    some (if c.manager.status = StatusCode.faulting then 1 else 0)
  else if offset = Register.fsrc then some c.faultingChannels
  else if offset = Register.ftrd then some c.manager.fault
  else if offset = Register.dbgstatus then some (if c.halted then 1 else 0)
  else if offset = Register.cr0 then some c.capability.cr0
  else if offset = Register.crd then some c.capability.crd
  else none

/-- The fault registers of the channels. -/
def channelFault? (c : ControllerBank) (offset : UInt64) : Option UInt32 :=
  if Register.ftr 0 ≤ offset ∧ offset % 4 = 0 then
    c.channels[((offset - Register.ftr 0) / 4).toNat]?.map ChannelBank.fault
  else
    none

/-- The status register of a channel. -/
def statusWord (b : ChannelBank) : UInt32 :=
  Register.ChannelStatus.nonSecure.setFlag b.nonSecure
    (Register.ChannelStatus.status.set b.status.toNat 0)

/-- The status registers and program counters of the channels. -/
def channelStatus? (c : ControllerBank) (offset : UInt64) : Option UInt32 :=
  if Register.csr 0 ≤ offset ∧ offset % 4 = 0 then
    c.channels[((offset - Register.csr 0) / 8).toNat]?.map fun b =>
      if offset % 8 = 0 then statusWord b else b.pc
  else
    none

/-- The addresses, control registers and loop counters of the
channels. -/
def channelTransfer? (c : ControllerBank) (offset : UInt64) : Option UInt32 :=
  if Register.sar 0 ≤ offset then do
    let b ← c.channels[((offset - Register.sar 0) / 0x20).toNat]?
    let place := (offset - Register.sar 0) % 0x20
    if place = 0x0 then some b.source
    else if place = 0x4 then some b.destination
    else if place = 0x8 then some b.control.word
    else if place = 0xc then some b.counter0.toUInt32
    else if place = 0x10 then some b.counter1.toUInt32
    else none
  else
    none

/-- The register at an offset in a window, if there is one. -/
def register? (c : ControllerBank) (offset : UInt64) : Option UInt32 :=
  c.fixedRegister? offset <|> c.capability.identification? offset <|>
    c.channelFault? offset <|> c.channelStatus? offset <|> c.channelTransfer? offset

/-- What a read at an offset gives: zero where there is no register. -/
def read (c : ControllerBank) (offset : UInt64) : UInt32 :=
  (c.register? offset).getD 0

/-- What a write at an offset does, through one of the register
windows. -/
def write (c : ControllerBank) (window : Security) (offset : UInt64) (value : UInt32) :
    ControllerBank :=
  if offset = Register.inten then { c with interruptEnable := value }
  else if offset = Register.intclr then { c with events := c.events &&& ~~~value }
  else if offset = Register.dbginst0 then { c with debugInst0 := value }
  else if offset = Register.dbginst1 then { c with debugInst1 := value }
  else if offset = Register.dbgcmd ∧ value = 0 then c.command window
  else c

end ControllerBank

end DmaController
