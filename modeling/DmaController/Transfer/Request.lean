/-
A transfer as its user describes it: where from, where to, how much, and
how the bus is to be used on the way.

Bytes move in bursts of `burstLength` beats of `2 ^ burstSize` bytes for
as long as a whole burst is left, and then in single beats of
`2 ^ singleBurstSize` bytes. What is smaller than one such beat stays
behind: it is the residue. Unit sizes are 32-bit words, and a shift
counts modulo 32; `validate`, in `Transfer.Plan`, keeps requests away
from where that would be felt.
-/
import DmaController.Capability

namespace DmaController

/-- Which sides of a transfer are memory. -/
inductive Direction where
  | memoryToMemory
  | memoryToPeriph
  | periphToMemory
  deriving DecidableEq

/-- One side of the transfer is a peripheral. -/
def Direction.hasPeriph : Direction → Bool
  | .memoryToMemory => false
  | .memoryToPeriph | .periphToMemory => true

/-- The size of the groups whose bytes a store reverses. -/
inductive Swap where
  | none
  | bits16
  | bits32
  | bits64
  | bits128
  deriving DecidableEq

/-- The base-two logarithm of the group size in bytes. -/
def Swap.code : Swap → Nat
  | .none => 0
  | .bits16 => 1
  | .bits32 => 2
  | .bits64 => 3
  | .bits128 => 4

/-- The longest burst, in beats. -/
def maxBurstLength : UInt8 := 16

/-- A transfer as its user describes it. -/
structure Request where
  source : UInt32
  destination : UInt32
  /-- Number of bytes to move. -/
  size : UInt32
  /-- Base-two logarithm of the bytes per beat of a burst. -/
  burstSize : UInt8
  /-- Beats per burst. -/
  burstLength : UInt8 := maxBurstLength
  /-- Base-two logarithm of the bytes per beat behind the last burst. -/
  singleBurstSize : UInt8 := 0
  /-- The peripheral, where one takes part. -/
  periph : UInt8 := 0
  direction : Direction := .memoryToMemory
  /-- Access the memory side through the cache. -/
  cache : Bool := false
  /-- The state the channel runs in. -/
  security : Security := .secure
  swap : Swap := .none
  deriving DecidableEq

namespace Request

/-- A copy from memory to memory in the longest bursts, with a tail of
single bytes. -/
def memoryToMemory (source destination size : UInt32) (burstSize : UInt8) : Request :=
  { source, destination, size, burstSize }

/-- A request to clear memory: the widest and longest bursts the bus
takes, and no source. -/
def zeroFill (cap : Capability) (destination size : UInt32) (security : Security) : Request :=
  { source := 0, destination, size, burstSize := cap.maxBurstSize, security }

/-- The bytes of one burst. -/
def burstBytes (req : Request) : UInt32 :=
  ((1 : UInt32) <<< req.burstSize.toUInt32) * req.burstLength.toUInt32

/-- The bytes of one single beat. -/
def singleBytes (req : Request) : UInt32 :=
  (1 : UInt32) <<< req.singleBurstSize.toUInt32

/-- How many whole bursts the transfer has. -/
def bursts (req : Request) : UInt32 :=
  req.size / req.burstBytes

/-- The bytes behind the last whole burst. -/
def tail (req : Request) : UInt32 :=
  req.size % req.burstBytes

/-- How many single beats follow the last burst. -/
def singles (req : Request) : UInt32 :=
  req.tail / req.singleBytes

/-- The bytes at the end that are smaller than a single beat. -/
def residue (req : Request) : UInt32 :=
  req.tail % req.singleBytes

end Request

end DmaController
