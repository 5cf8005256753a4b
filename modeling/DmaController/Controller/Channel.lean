/-
A channel thread and what it does with data. A channel has its own
registers and its own data in the buffer; memory and the events are
shared by all channels and handed from one to the next.

A load appends one source burst to the buffer, a store takes one
destination burst from its front. Each either happens completely or
faults: the range is looked at before anything is written, and a faulting
channel drops the data it held.
-/
import DmaController.Capability
import DmaController.Instruction.Basic
import DmaController.Memory.Basic
import DmaController.Register.ChannelControl
import DmaController.Register.Fault

namespace DmaController

-- ============================================================== status

/-- Where a channel is in its life. A wait carries the event it waits
for, a fault its cause. -/
inductive Channel.Status where
  | stopped
  | executing
  | waiting (event : UInt8)
  | killing
  | completing
  | faultCompleting (cause : ChannelFault)
  | faulting (cause : ChannelFault)
  deriving DecidableEq

namespace Channel.Status

/-- The code of a status in the channel status register. -/
def code : Status → Nat
  | stopped => 0x0
  | executing => 0x1
  | waiting _ => 0x4
  | killing => 0x8
  | completing => 0x9
  | faultCompleting _ => 0xe
  | faulting _ => 0xf

/-- The cause of a fault, from the moment it happens until it is
cleared. -/
def cause? : Status → Option ChannelFault
  | faultCompleting cause | faulting cause => some cause
  | _ => none

/-- The channel has come to rest with a fault. -/
def isFaulting : Status → Bool
  | faulting _ => true
  | _ => false

end Channel.Status

-- ============================================================= channels

/-- A channel thread. Right after reset everything is zero. -/
structure Channel where
  status : Channel.Status := .stopped
  pc : UInt32 := 0
  source : UInt32 := 0
  destination : UInt32 := 0
  control : Register.ChannelControl := ⟨0⟩
  /-- The loop counters hold the rounds that are left, minus one. -/
  counter0 : UInt8 := 0
  counter1 : UInt8 := 0
  nonSecure : Bool := false
  /-- The last awaited peripheral request was a burst. -/
  servesBurst : Bool := false
  /-- The channel's data in the buffer, the oldest byte first. -/
  mfifo : List UInt8 := []
  deriving DecidableEq

/-- What all channels share. -/
structure Shared where
  /-- The pending events, one bit each. -/
  events : UInt32
  memory : Memory

namespace Channel

/-- A channel that was just started: everything else is as after
reset. -/
def started (pc : UInt32) (nonSecure : Bool) : Channel :=
  { status := .executing, pc, nonSecure }

/-- A channel that stops by command: its data and its fault are gone. -/
def killed (ch : Channel) : Channel :=
  { ch with status := .killing, mfifo := [] }

/-- A channel whose instruction faulted. It stays at that instruction
and drops its data. -/
def fault (ch : Channel) (cause : ChannelFault) : Channel :=
  { ch with status := .faultCompleting cause, mfifo := [] }

/-- A channel behind an instruction that did what it does. -/
def past (ch : Channel) (i : Instruction) : Channel :=
  { ch with pc := ch.pc + UInt32.ofNat i.length }

/-- The content of the fault register. -/
def faultBits (ch : Channel) : UInt32 :=
  match ch.status.cause? with
  | some cause => cause.flag
  | none => 0

def counter (ch : Channel) : LoopCounter → UInt8
  | .zero => ch.counter0
  | .one => ch.counter1

def setCounter (ch : Channel) (counter : LoopCounter) (value : UInt8) : Channel :=
  match counter with
  | .zero => { ch with counter0 := value }
  | .one => { ch with counter1 := value }

-- ================================================================ data

/-- The bytes in groups of `size`, each group reversed; the last group
may be shorter. -/
def reverseGroups (size : Nat) (bytes : List UInt8) : List UInt8 :=
  if _ : size = 0 ∨ bytes = [] then
    bytes
  else
    (bytes.take size).reverse ++ reverseGroups size (bytes.drop size)
termination_by bytes.length
decreasing_by
  obtain ⟨size_ne, bytes_ne⟩ := not_or.1 ‹¬ (size = 0 ∨ bytes = [])›
  have := List.length_pos_iff.2 bytes_ne
  simp only [List.length_drop]
  omega

/-- A block as a store writes it: in groups of two to the power of the
swap field. -/
def swapped (ch : Channel) (block : List UInt8) : List UInt8 :=
  let swap := Register.ChannelControl.endianSwap.get ch.control.word
  if swap = 0 then block else reverseGroups (1 <<< swap) block

/-- The channel after a block left its source side. -/
def advanceSource (ch : Channel) (length : Nat) : Channel :=
  if Register.ChannelControl.sourceIncrement.isSet ch.control.word then
    { ch with source := ch.source + UInt32.ofNat length }
  else
    ch

/-- The channel after a block reached its destination side. -/
def advanceDestination (ch : Channel) (length : Nat) : Channel :=
  if Register.ChannelControl.destinationIncrement.isSet ch.control.word then
    { ch with destination := ch.destination + UInt32.ofNat length }
  else
    ch

/-- Reads one source burst into the buffer. -/
def load (cap : Capability) (memory : Memory) (ch : Channel) : Except ChannelFault Channel :=
  let length := ch.control.sourceBurstBytes
  if cap.mfifoBytes.toNat < ch.mfifo.length + length then
    .error .mfifoError
  else
    match memory.read ch.source.toUInt64 length with
    | .ok block => .ok ({ ch with mfifo := ch.mfifo ++ block }.advanceSource length)
    | .error _ => .error .readError

/-- Why one destination burst cannot be written from the buffer. -/
def storeRefusal? (memory : Memory) (ch : Channel) : Option ChannelFault :=
  let length := ch.control.destinationBurstBytes
  if ch.mfifo.length < length then
    some .storeDataUnavailable
  else if memory.Covers ch.destination.toUInt64 length then
    none
  else
    some .writeError

/-- The block a store writes. -/
def storeBlock (ch : Channel) : List UInt8 :=
  ch.swapped (ch.mfifo.take ch.control.destinationBurstBytes)

/-- The channel after a store. -/
def stored (ch : Channel) : Channel :=
  let length := ch.control.destinationBurstBytes
  { ch with mfifo := ch.mfifo.drop length }.advanceDestination length

/-- Why one destination burst of zeros cannot be written. -/
def clearRefusal? (memory : Memory) (ch : Channel) : Option ChannelFault :=
  if memory.Covers ch.destination.toUInt64 ch.control.destinationBurstBytes then
    none
  else
    some .writeError

/-- The channel after a store of zeros. -/
def cleared (ch : Channel) : Channel :=
  ch.advanceDestination ch.control.destinationBurstBytes

end Channel

end DmaController
