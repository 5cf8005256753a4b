/-
An instruction through the debug interface. A driver packs the thread
and the first two bytes of the instruction into one register and the
other four into a second one; the controller takes them apart again. The
two agree: what the controller finds is the thread the instruction is
for, and the instruction as it would be read from memory. The bytes
behind a short instruction are zero and do not matter, since decoding
looks no further than the instruction.
-/
import DmaController.Driver.Basic
import DmaController.Proofs.Controller.Registers

namespace DmaController

open Register (DebugInstruction.channelThread DebugInstruction.channel
  DebugInstruction.byte0 DebugInstruction.byte1)

-- ========================================================== the fields

section

variable (i : Instruction) (n : UInt8)

theorem byte_mod (b : UInt8) : b.toNat % (1 <<< 8) = b.toNat :=
  Nat.mod_eq_of_lt b.toNat_lt

theorem get_byte0_debugInst0 (thread : Thread) :
    DebugInstruction.byte0.get (Driver.debugInst0 i thread) =
      (i.encode.getD 0 0).toNat := by
  unfold Driver.debugInst0
  rw [Register.Field.get_set_of_apart (by decide),
    Register.Field.get_set_self (by decide)]
  exact byte_mod _

theorem get_byte1_debugInst0 (thread : Thread) :
    DebugInstruction.byte1.get (Driver.debugInst0 i thread) =
      (i.encode.getD 1 0).toNat := by
  unfold Driver.debugInst0
  rw [Register.Field.get_set_self (by decide)]
  exact byte_mod _

theorem isSet_channelThread_manager :
    DebugInstruction.channelThread.isSet (Driver.debugInst0 i .manager) =
      false := by
  rw [Register.Field.isSet, Driver.debugInst0,
    Register.Field.get_set_of_apart (by decide),
    Register.Field.get_set_of_apart (by decide)]
  decide

theorem isSet_channelThread_channel :
    DebugInstruction.channelThread.isSet (Driver.debugInst0 i (.channel n)) =
      true := by
  rw [Register.Field.isSet, Driver.debugInst0,
    Register.Field.get_set_of_apart (by decide),
    Register.Field.get_set_of_apart (by decide),
    Register.Field.get_set_of_apart (by decide), Register.Field.setFlag,
    Register.Field.get_set_self (by decide)]
  decide

theorem get_channel_debugInst0 :
    DebugInstruction.channel.get (Driver.debugInst0 i (.channel n)) =
      n.toNat % 8 := by
  rw [Driver.debugInst0, Register.Field.get_set_of_apart (by decide),
    Register.Field.get_set_of_apart (by decide),
    Register.Field.get_set_self (by decide)]
  rfl

end

/-- The six bytes of a debug instruction are those of the instruction,
with zeros behind them. -/
theorem Instruction.getD_encode (i : Instruction) :
    [i.encode.getD 0 0, i.encode.getD 1 0, i.encode.getD 2 0,
        i.encode.getD 3 0, i.encode.getD 4 0, i.encode.getD 5 0] =
      i.encode ++ List.replicate (6 - i.encode.length) 0 := by
  cases i <;> rfl

/-- Two words that give an instruction to a thread. In the first, bit 0 is
set for a channel, three bits from bit 8 on are its number, and the upper
half has the first two bytes of the instruction; the second has the other
four. -/
structure Driver.Gives (inst0 inst1 : UInt32) (i : Instruction)
    (thread : Thread) : Prop where
  instruction : Instruction.decode
    (UInt8.ofNat (inst0.toNat >>> 16) :: UInt8.ofNat (inst0.toNat >>> 24) ::
      Word.bytes32 inst1) = .ok i.normalize
  kind : inst0.toNat % 2 = 1 ↔ thread ≠ .manager
  number : ∀ n, thread = .channel n → (inst0.toNat >>> 8) % 8 = n.toNat % 8

/-- A driver's words give its instruction. -/
theorem Driver.gives_debugInst (i : Instruction) (thread : Thread) :
    Gives (debugInst0 i thread) (debugInst1 i) i thread where
  instruction := by
    have first : UInt8.ofNat ((debugInst0 i thread).toNat >>> 16) =
        i.encode.getD 0 0 := by
      have byte := get_byte0_debugInst0 i thread
      rw [Register.Field.get] at byte
      exact UInt8.toNat_inj.1 (UInt8.toNat_ofNat'.trans byte)
    have second : UInt8.ofNat ((debugInst0 i thread).toNat >>> 24) =
        i.encode.getD 1 0 := by
      have byte := get_byte1_debugInst0 i thread
      rw [Register.Field.get] at byte
      exact UInt8.toNat_inj.1 (UInt8.toNat_ofNat'.trans byte)
    rw [first, second, debugInst1, Word.bytes32_ofBytes32, i.getD_encode]
    exact Instruction.decode_encode_append i _
  kind := by
    have bit : DebugInstruction.channelThread.get (debugInst0 i thread) =
        (debugInst0 i thread).toNat % 2 := rfl
    cases thread with
    | manager =>
        have unset := isSet_channelThread_manager i
        simp only [Register.Field.isSet, bit, bne_eq_false_iff_eq] at unset
        simp [unset]
    | channel n =>
        have set := isSet_channelThread_channel i n
        simp only [Register.Field.isSet, bit, bne_iff_ne] at set
        simp only [reduceCtorEq, ne_eq, not_false_eq_true, iff_true]
        omega
  number := by
    rintro n rfl
    exact get_channel_debugInst0 i n

-- ============================================================ commands

namespace Controller

/-- The controller with an instruction in its debug registers. -/
def told (c : Controller) (i : Instruction) (thread : Thread) : Controller :=
  { c with
    debugInst0 := Driver.debugInst0 i thread,
    debugInst1 := Driver.debugInst1 i }

/-- What a controller does with an instruction a driver gives it for a
thread. -/
def given (c : Controller) (window : Security) (i : Instruction) :
    Thread → Controller
  | .manager => (c.told i .manager).managerCommand window i.normalize
  | .channel n =>
    (c.told i (.channel n)).channelCommand (n.toNat % 8) i.normalize

/-- The instruction in the two halves is the one that was packed. -/
theorem debugInstruction_told (c : Controller) (i : Instruction)
    (thread : Thread) :
    (c.told i thread).debugInstruction = .ok i.normalize := by
  rw [debugInstruction, told, get_byte0_debugInst0, get_byte1_debugInst0,
    Driver.debugInst1, Word.bytes32_ofBytes32, UInt8.ofNat_toNat,
    UInt8.ofNat_toNat, i.getD_encode]
  exact Instruction.decode_encode_append i _

/-- The command that follows the two halves executes the instruction. -/
theorem command_told {c : Controller} (awake : c.halted = false)
    (window : Security) (i : Instruction) (thread : Thread) :
    (c.told i thread).command window = c.given window i thread := by
  have still : (c.told i thread).halted = false := awake
  rw [command, debugInstruction_told]
  simp only [still, Bool.false_eq_true, if_false]
  cases thread with
  | manager =>
      have forManager : (c.told i .manager).debugIsForChannel = false :=
        isSet_channelThread_manager i
      simp only [forManager, Bool.false_eq_true, if_false, given]
  | channel n =>
      have forChannel : (c.told i (.channel n)).debugIsForChannel = true :=
        isSet_channelThread_channel i n
      have which : (c.told i (.channel n)).debugChannel = n.toNat % 8 :=
        get_channel_debugInst0 i n
      simp only [forChannel, which, if_true, given]

end Controller

end DmaController
