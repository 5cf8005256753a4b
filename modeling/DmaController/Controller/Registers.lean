/-
The controller as its registers show it. Reading a register never
changes anything; writing one either sets it, clears events, or gives
the debug command.

The registers of the channels lie in three ranges, for faults, for
status and program counter, and for addresses, control and counters. A
controller with very many channels would make the ranges overlap; then
the earlier range wins, as it does for the fixed registers before all of
them.
-/
import DmaController.Controller.Basic
import DmaController.Register.Map

namespace DmaController

-- ===================================================== fixed contents

namespace Capability

open Register in
/-- Configuration register 0: how many of everything there are. -/
def cr0 (cap : Capability) : UInt32 :=
  let word : UInt32 := 0
  let word := Configuration.hasPeriph.setFlag (cap.numPeriph ≠ 0) word
  let word := Configuration.numChannels.set (cap.numChannels - 1).toNat word
  let word := Configuration.numPeriph.set (cap.numPeriph.toNat - 1) word
  Configuration.numEvents.set (cap.numEvents - 1).toNat word

open Register in
/-- The data configuration register: the bus, the queues, the buffer. -/
def crd (cap : Capability) : UInt32 :=
  let word : UInt32 := 0
  let word := DataConfiguration.dataWidth.set cap.maxBurstSize.toNat word
  let word := DataConfiguration.writeCapability.set 7 word
  let word := DataConfiguration.writeQueueDepth.set 15 word
  let word := DataConfiguration.readCapability.set 7 word
  let word := DataConfiguration.readQueueDepth.set 15 word
  DataConfiguration.bufferDepth.set (cap.mfifoLines - 1).toNat word

/-- The bytes of the peripheral identification. -/
def periphId (cap : Capability) : List UInt8 :=
  let revision : UInt8 := cap.revision <<< 4
  [0x30, 0x13, 0x04 ||| revision, 0x00]

/-- The bytes of the component identification. -/
def pcellId : List UInt8 :=
  Word.bytes32 Register.pcellId

/-- Identification registers hold one byte each. -/
def identification? (cap : Capability) (offset : UInt64) : Option UInt32 :=
  let byte? (bytes : List UInt8) (first : UInt64) : Option UInt32 :=
    if first ≤ offset ∧ offset % 4 = 0 then
      bytes[((offset - first) / 4).toNat]?.map UInt8.toUInt32
    else
      none
  byte? cap.periphId Register.periphId0 <|> byte? pcellId Register.pcellId0

end Capability

namespace Controller

-- ================================================ single registers

/-- The faulting channels, one bit each. -/
def faultingChannels (c : Controller) : UInt32 :=
  c.channels.zipIdx.foldl (fun word ch =>
    if ch.1.status.isFaulting then word ||| ((1 : UInt32) <<< UInt32.ofNat ch.2) else word) 0

/-- The registers that do not belong to a channel. -/
def fixedRegister? (c : Controller) (offset : UInt64) : Option UInt32 :=
  if offset = Register.dsr then some (Register.ManagerStatus.status.set c.manager.code 0)
  else if offset = Register.dpc then some 0
  else if offset = Register.inten then some c.interruptEnable
  else if offset = Register.intEventRis then some c.events
  else if offset = Register.intmis then some (c.events &&& c.interruptEnable)
  else if offset = Register.fsrd then some (if c.manager = .stopped then 0 else 1)
  else if offset = Register.fsrc then some c.faultingChannels
  else if offset = Register.ftrd then some c.manager.faultBits
  else if offset = Register.dbgstatus then some (if c.halted then 1 else 0)
  else if offset = Register.cr0 then some c.capability.cr0
  else if offset = Register.crd then some c.capability.crd
  else none

-- ============================================== registers of channels

/-- The fault registers of the channels. -/
def channelFault? (c : Controller) (offset : UInt64) : Option UInt32 :=
  if Register.ftr 0 ≤ offset ∧ offset % 4 = 0 then
    c.channels[((offset - Register.ftr 0) / 4).toNat]?.map Channel.faultBits
  else
    none

/-- The status register of a channel. -/
def statusWord (ch : Channel) : UInt32 :=
  Register.ChannelStatus.nonSecure.setFlag ch.nonSecure
    (Register.ChannelStatus.status.set ch.status.code 0)

/-- The status registers and program counters of the channels. -/
def channelStatus? (c : Controller) (offset : UInt64) : Option UInt32 :=
  if Register.csr 0 ≤ offset ∧ offset % 4 = 0 then
    c.channels[((offset - Register.csr 0) / 8).toNat]?.map fun ch =>
      if offset % 8 = 0 then statusWord ch else ch.pc
  else
    none

/-- The addresses, control registers and loop counters of the
channels. -/
def channelTransfer? (c : Controller) (offset : UInt64) : Option UInt32 :=
  if Register.sar 0 ≤ offset then do
    let ch ← c.channels[((offset - Register.sar 0) / 0x20).toNat]?
    let place := (offset - Register.sar 0) % 0x20
    if place = 0x0 then some ch.source
    else if place = 0x4 then some ch.destination
    else if place = 0x8 then some ch.control.word
    else if place = 0xc then some ch.counter0.toUInt32
    else if place = 0x10 then some ch.counter1.toUInt32
    else none
  else
    none

-- ========================================================= the window

/-- The register at an offset in a window, if there is one. -/
def register? (c : Controller) (offset : UInt64) : Option UInt32 :=
  c.fixedRegister? offset <|> c.capability.identification? offset <|>
    c.channelFault? offset <|> c.channelStatus? offset <|> c.channelTransfer? offset

/-- What a read at an offset gives: zero where there is no register. -/
def read (c : Controller) (offset : UInt64) : UInt32 :=
  (c.register? offset).getD 0

/-- What a write at an offset does, through one of the register
windows. -/
def write (c : Controller) (window : Security) (offset : UInt64) (value : UInt32) : Controller :=
  if offset = Register.inten then { c with interruptEnable := value }
  else if offset = Register.intclr then { c with events := c.events &&& ~~~value }
  else if offset = Register.dbginst0 then { c with debugInst0 := value }
  else if offset = Register.dbginst1 then { c with debugInst1 := value }
  else if offset = Register.dbgcmd ∧ value = 0 then c.command window
  else c

/-- Whether a write at an offset does anything at all. -/
def isWritable (offset : UInt64) (value : UInt32) : Bool :=
  offset = Register.inten || offset = Register.intclr || offset = Register.dbginst0 ||
    offset = Register.dbginst1 || (offset = Register.dbgcmd && value = 0)

end Controller

end DmaController
