/-
The channel control register: how a channel accesses its source and its
destination. Each side has a burst of `length + 1` beats of
`2 ^ size` bytes, a flag that says whether the address advances, and
cache and protection attributes; the swap field groups the bytes a store
reverses.
-/
import DmaController.Register.Field

namespace DmaController.Register

/-- The channel control register. -/
structure ChannelControl where
  word : UInt32
  deriving DecidableEq

namespace ChannelControl

def sourceIncrement : Field := ⟨0, 1⟩
def sourceBurstSize : Field := ⟨1, 3⟩
def sourceBurstLength : Field := ⟨4, 4⟩
def sourceProtection : Field := ⟨8, 3⟩
def sourceCache : Field := ⟨11, 3⟩
def destinationIncrement : Field := ⟨14, 1⟩
def destinationBurstSize : Field := ⟨15, 3⟩
def destinationBurstLength : Field := ⟨18, 4⟩
def destinationProtection : Field := ⟨22, 3⟩
def destinationCache : Field := ⟨25, 3⟩
def endianSwap : Field := ⟨28, 3⟩

-- ========================================================== attributes

/-- Cache attribute of bufferable accesses. -/
def bufferable : Nat := 0b001

/-- Cache attribute of cacheable write-back accesses. -/
def writeBack : Nat := 0b111

/-- The protection bit of privileged accesses. -/
def privileged : Nat := 0b001

/-- The protection bit of non-secure accesses. -/
def nonSecure : Nat := 0b010

/-- Whether a protection attribute stands for non-secure accesses. -/
def isNonSecure (protection : Nat) : Bool :=
  protection.testBit 1

-- =========================================================== one burst

/-- The bytes one source burst moves. -/
def sourceBurstBytes (ccr : ChannelControl) : Nat :=
  (1 <<< sourceBurstSize.get ccr.word) * (sourceBurstLength.get ccr.word + 1)

/-- The bytes one destination burst moves. -/
def destinationBurstBytes (ccr : ChannelControl) : Nat :=
  (1 <<< destinationBurstSize.get ccr.word) * (destinationBurstLength.get ccr.word + 1)

/-- Both sides access memory in the non-secure state. -/
def isNonSecureBoth (ccr : ChannelControl) : Bool :=
  isNonSecure (sourceProtection.get ccr.word) && isNonSecure (destinationProtection.get ccr.word)

end ChannelControl

end DmaController.Register
