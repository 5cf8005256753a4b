/-
The threads of a controller as a driver sees them: the manager and the
channels, and the state a thread reports in four bits of its status
register.

The manager knows fewer states than a channel, so a code that means
something on a channel can be invalid on the manager.
-/
namespace DmaController

/-- A thread of the controller. -/
inductive Thread where
  | manager
  | channel (number : UInt8)
  deriving DecidableEq

def Thread.text : Thread → String
  | .manager => "manager"
  | .channel number => s!"channel {number}"

/-- The state a thread reports. -/
inductive ThreadState where
  | stopped
  | executing
  | cacheMiss
  | updatePc
  | wfe
  | atBarrier
  | queueBusy
  | wfp
  | killing
  | completing
  | faulting
  | faultCompleting
  | invalid
  deriving DecidableEq

namespace ThreadState

/-- The state with a code. -/
def ofCode : Thread → Nat → ThreadState
  | _, 0x0 => stopped
  | _, 0x1 => executing
  | _, 0x2 => cacheMiss
  | _, 0x3 => updatePc
  | _, 0x4 => wfe
  | .channel _, 0x5 => atBarrier
  | .channel _, 0x6 => queueBusy
  | .channel _, 0x7 => wfp
  | .channel _, 0x8 => killing
  | .channel _, 0x9 => completing
  | .channel _, 0xe => faultCompleting
  | _, 0xf => faulting
  | _, _ => invalid

/-- The state in a status register; the code is in the low four bits. -/
def ofStatus (thread : Thread) (word : UInt32) : ThreadState :=
  ofCode thread (word.toNat % 16)

/-- The thread has a program that is still making progress. -/
def isActive : ThreadState → Bool
  | executing | cacheMiss | updatePc | wfe | atBarrier | queueBusy | wfp => true
  | _ => false

/-- The state's name. -/
def name : ThreadState → String
  | stopped => "Stopped"
  | executing => "Executing"
  | cacheMiss => "CacheMiss"
  | updatePc => "UpdatePc"
  | wfe => "Wfe"
  | atBarrier => "AtBarrier"
  | queueBusy => "QueueBusy"
  | wfp => "Wfp"
  | killing => "Killing"
  | completing => "Completing"
  | faulting => "Faulting"
  | faultCompleting => "FaultCompleting"
  | invalid => "Invalid"

end ThreadState

end DmaController
