/-
The remaining registers with fields: the status registers of the
manager and the channels, the first debug instruction register, and the
two configuration registers that a driver reads to learn what it talks
to.
-/
import DmaController.Register.Field

namespace DmaController.Register

-- ======================================================= thread status

namespace ManagerStatus

def status : Field := ⟨0, 4⟩
def wakeupEvent : Field := ⟨4, 5⟩
def nonSecure : Field := ⟨9, 1⟩

end ManagerStatus

namespace ChannelStatus

def status : Field := ⟨0, 4⟩
def wakeupNumber : Field := ⟨4, 5⟩
/-- The awaited peripheral request is a burst. -/
def awaitsBurst : Field := ⟨14, 1⟩
/-- The peripheral chooses the kind of the awaited request. -/
def awaitsPeriph : Field := ⟨15, 1⟩
def nonSecure : Field := ⟨21, 1⟩

end ChannelStatus

-- =================================================== debug instruction

namespace DebugInstruction

/-- Clear for the manager thread, set for a channel thread. -/
def channelThread : Field := ⟨0, 1⟩
def channel : Field := ⟨8, 3⟩
def byte0 : Field := ⟨16, 8⟩
def byte1 : Field := ⟨24, 8⟩

end DebugInstruction

-- ======================================================= configuration

namespace Configuration

/-- There are peripheral request interfaces. -/
def hasPeriph : Field := ⟨0, 1⟩
def bootEnabled : Field := ⟨1, 1⟩
/-- The manager leaves reset in the non-secure state. -/
def managerNonSecure : Field := ⟨2, 1⟩
/-- Number of channels, minus one. -/
def numChannels : Field := ⟨4, 3⟩
/-- Number of peripheral request interfaces, minus one. -/
def numPeriph : Field := ⟨12, 5⟩
/-- Number of events, minus one. -/
def numEvents : Field := ⟨17, 5⟩

end Configuration

namespace DataConfiguration

/-- Base-two logarithm of the data bus width in bytes. -/
def dataWidth : Field := ⟨0, 3⟩
def writeCapability : Field := ⟨4, 3⟩
def writeQueueDepth : Field := ⟨8, 4⟩
def readCapability : Field := ⟨12, 3⟩
def readQueueDepth : Field := ⟨16, 4⟩
/-- Lines of the data buffer, minus one. -/
def bufferDepth : Field := ⟨20, 10⟩

end DataConfiguration

end DmaController.Register
