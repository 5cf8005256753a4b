/-
What one generation of the controller can do, and the two security
states everything on the bus is divided into.

The numbers have the width the hardware documents give them, and
arithmetic on them stays in that width: the capacity of the data buffer
is a 32-bit product. A shift by 32 or more would overflow; here it counts
modulo 32, and no controller has a bus that wide.
-/
namespace DmaController

/-- The security state of a thread, an access or a register window. -/
inductive Security where
  | secure
  | nonSecure
  deriving DecidableEq

/-- Fixed properties of one controller generation. -/
structure Capability where
  name : String
  numChannels : UInt8
  /-- Base-two logarithm of the data bus width in bytes. -/
  maxBurstSize : UInt8
  numPeriph : UInt8
  numEvents : UInt8
  /-- Where the secure register window starts, from the controller's
  base. -/
  secureOffset : UInt64
  nonSecureOffset : UInt64
  revision : UInt8
  /-- Lines of the data buffer shared by the channels, each as wide as
  the data bus. -/
  mfifoLines : UInt16
  deriving DecidableEq

namespace Capability

/-- The bytes the data buffer holds. -/
def mfifoBytes (cap : Capability) : UInt32 :=
  cap.mfifoLines.toUInt32 * ((1 : UInt32) <<< cap.maxBurstSize.toUInt32)

/-- The offset of a register window from the controller's base. -/
def window (cap : Capability) : Security → UInt64
  | .secure => cap.secureOffset
  | .nonSecure => cap.nonSecureOffset

/-- The PL330, with a 64-bit data bus. -/
def pl330 : Capability where
  name := "pl330"
  numChannels := 8
  maxBurstSize := 3
  numPeriph := 32
  numEvents := 32
  secureOffset := 0x0
  nonSecureOffset := 0x1000
  revision := 2
  mfifoLines := 64

/-- The DMA-330, with a 128-bit data bus and its windows the other way
round. -/
def dma330 : Capability where
  name := "dma330"
  numChannels := 8
  maxBurstSize := 4
  numPeriph := 32
  numEvents := 32
  secureOffset := 0x1000
  nonSecureOffset := 0x0
  revision := 3
  mfifoLines := 128

end Capability

/-- The controller generations a driver knows. -/
inductive Variant where
  | pl330
  | dma330
  deriving DecidableEq

/-- What a generation can do. -/
def Variant.capability : Variant → Capability
  | .pl330 => .pl330
  | .dma330 => .dma330

end DmaController
