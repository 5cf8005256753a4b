/-
Why a thread faulted. The fault register of a thread is a set of flags;
each cause has a bit and a name, and a register may also hold bits that
have no name.

The text of a set lists the named flags from the lowest bit up, and then
the nameless rest as one number.
-/
import DmaController.Text.Hex

namespace DmaController

/-- The causes a channel's fault register can name. -/
inductive ChannelFault where
  /-- Undefined instruction. -/
  | undefInstr
  /-- Invalid operand for the instruction. -/
  | operandInvalid
  /-- An event the channel has no access to. -/
  | eventError
  /-- A peripheral the channel has no access to. -/
  | periphError
  /-- Secure channel control in a non-secure thread. -/
  | securityError
  /-- The data buffer is too small for the program. -/
  | mfifoError
  /-- A store without enough data in the buffer. -/
  | storeDataUnavailable
  | fetchError
  | writeError
  | readError
  /-- The instruction came from the debug interface. -/
  | debugInstr
  | lockup
  deriving DecidableEq

namespace ChannelFault

/-- The causes from the lowest bit up. -/
def all : List ChannelFault :=
  [undefInstr, operandInvalid, eventError, periphError, securityError, mfifoError,
    storeDataUnavailable, fetchError, writeError, readError, debugInstr, lockup]

/-- The number of the cause's bit. -/
def position : ChannelFault → UInt32
  | undefInstr => 0
  | operandInvalid => 1
  | eventError => 5
  | periphError => 6
  | securityError => 7
  | mfifoError => 12
  | storeDataUnavailable => 13
  | fetchError => 16
  | writeError => 17
  | readError => 18
  | debugInstr => 30
  | lockup => 31

/-- The register with only this cause's bit set. -/
def flag (fault : ChannelFault) : UInt32 :=
  (1 : UInt32) <<< fault.position

/-- The name of the bit. -/
def name : ChannelFault → String
  | undefInstr => "UNDEF_INSTR"
  | operandInvalid => "OPERAND_INVALID"
  | eventError => "CH_EVNT_ERR"
  | periphError => "CH_PERIPH_ERR"
  | securityError => "CH_RDWR_ERR"
  | mfifoError => "MFIFO_ERR"
  | storeDataUnavailable => "ST_DATA_UNAVAILABLE"
  | fetchError => "INSTR_FETCH_ERR"
  | writeError => "DATA_WRITE_ERR"
  | readError => "DATA_READ_ERR"
  | debugInstr => "DBG_INSTR"
  | lockup => "LOCKUP_ERR"

end ChannelFault

/-- The causes the manager's fault register can name. -/
inductive ManagerFault where
  | undefInstr
  | operandInvalid
  /-- A start of a channel with a higher security level. -/
  | startError
  | eventError
  | fetchError
  | debugInstr
  deriving DecidableEq

namespace ManagerFault

/-- The causes from the lowest bit up. -/
def all : List ManagerFault :=
  [undefInstr, operandInvalid, startError, eventError, fetchError, debugInstr]

/-- The number of the cause's bit. -/
def position : ManagerFault → UInt32
  | undefInstr => 0
  | operandInvalid => 1
  | startError => 4
  | eventError => 5
  | fetchError => 16
  | debugInstr => 30

/-- The register with only this cause's bit set. -/
def flag (fault : ManagerFault) : UInt32 :=
  (1 : UInt32) <<< fault.position

/-- The name of the bit. -/
def name : ManagerFault → String
  | undefInstr => "UNDEF_INSTR"
  | operandInvalid => "OPERAND_INVALID"
  | startError => "DMAGO_ERR"
  | eventError => "MGR_EVNT_ERR"
  | fetchError => "INSTR_FETCH_ERR"
  | debugInstr => "DBG_INSTR"

end ManagerFault

-- ======================================================= sets of flags

/-- The content of a thread's fault register. -/
inductive FaultRegister where
  | channel (bits : UInt32)
  | manager (bits : UInt32)
  deriving DecidableEq

namespace FaultRegister

/-- The raw bits. -/
def bits : FaultRegister → UInt32
  | channel bits | manager bits => bits

/-- The flags with a name, from the lowest bit up. -/
def flags : FaultRegister → List (UInt32 × String)
  | channel _ => ChannelFault.all.map fun f => (f.flag, f.name)
  | manager _ => ManagerFault.all.map fun f => (f.flag, f.name)

/-- The bits that have a name. -/
def known (r : FaultRegister) : UInt32 :=
  r.flags.foldl (fun known flag => known ||| (r.bits &&& flag.1)) 0

/-- The set of flags as text: names, then the nameless bits. -/
def flagText (r : FaultRegister) : String :=
  let names := r.flags.filterMap fun flag =>
    if r.bits &&& flag.1 == 0 then none else some flag.2
  let rest := r.bits &&& ~~~r.known
  let pieces := if rest == 0 then names else names ++ [Text.hex rest.toNat]
  if pieces.isEmpty then Text.hex 0 else " | ".intercalate pieces

/-- The set of flags under the name of its register. -/
def setText : FaultRegister → String
  | r@(channel _) => s!"ChannelFault({r.flagText})"
  | r@(manager _) => s!"ManagerFault({r.flagText})"

/-- The register's text: the kind of thread and its flags. -/
def text : FaultRegister → String
  | r@(channel _) => s!"Channel({r.setText})"
  | r@(manager _) => s!"Manager({r.setText})"

end FaultRegister

end DmaController
