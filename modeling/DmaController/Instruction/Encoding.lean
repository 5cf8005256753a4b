/-
Instructions as bytes. An instruction is its opcode followed by its
operand bytes; reading one back looks the opcode up and then asks for as
many operand bytes as that opcode has.

Encoding checks nothing: a number too wide for its place loses its high
bits, so an encoding always exists and always has the instruction's
length. Decoding is exact about why it fails. An unknown first byte is
reported however short the input is; a known one with too few bytes
behind it is cut off; only a complete move can name a register that does
not exist.
-/
import DmaController.Instruction.Opcode
import DmaController.Word
import DmaController.Text.Hex

namespace DmaController

/-- Why bytes do not start with an instruction. -/
inductive DecodeError where
  | truncated (need remain : Nat)
  | unknownOpcode (opcode : UInt8)
  | invalidOperand (opcode operand : UInt8)
  deriving DecidableEq

def DecodeError.message : DecodeError → String
  | .truncated need remain => s!"Instruction needs {need} bytes, only {remain} left"
  | .unknownOpcode opcode => s!"Unknown opcode {Text.hexWide 2 opcode.toNat}"
  | .invalidOperand opcode operand =>
    s!"Invalid operand {Text.hexWide 2 operand.toNat} for opcode {Text.hexWide 2 opcode.toNat}"

-- ============================================================= writing

/-- The number of a register in the second byte of a move. -/
def MoveTarget.toByte : MoveTarget → UInt8
  | .sourceAddress => 0
  | .channelControl => 1
  | .destinationAddress => 2

/-- The register a move's second byte names, if there is one. -/
def MoveTarget.ofByte? : UInt8 → Option MoveTarget
  | 0 => some .sourceAddress
  | 1 => some .channelControl
  | 2 => some .destinationAddress
  | _ => none

namespace Instruction

/-- The opcode of an instruction. -/
def opcode : Instruction → Opcode
  | finish => .finish
  | kill => .kill
  | nop => .nop
  | rmb => .rmb
  | wmb => .wmb
  | stz => .stz
  | ld condition => .ld condition
  | st condition => .st condition
  | ldp kind _ => .ldp kind
  | stp kind _ => .stp kind
  | lp counter _ => .lp counter
  | lpend counter condition _ => .lpend counter condition
  | wfp awaited _ => .wfp awaited
  | flushp _ => .flushp
  | sev _ => .sev
  | wfe .. => .wfe
  | addh register _ => .addh register
  | mov .. => .mov
  | go _ _ nonSecure => .go nonSecure

/-- The bytes behind the opcode. Peripheral and event numbers stand in
the high five bits of theirs. -/
def operands : Instruction → List UInt8
  | finish | kill | nop | rmb | wmb | stz | ld _ | st _ => []
  | ldp _ periph | stp _ periph | wfp _ periph | flushp periph => [periph <<< 3]
  | lp _ iterations => [(iterations - 1).toUInt8]
  | lpend _ _ jump => [jump]
  | sev event => [event <<< 3]
  | wfe event invalidate => [event <<< 3 ||| if invalidate then 2 else 0]
  | addh _ amount => Word.bytes16 amount
  | mov register value => register.toByte :: Word.bytes32 value
  | go channel pc _ => (channel &&& 7) :: Word.bytes32 pc

/-- The bytes of an instruction. -/
def encode (i : Instruction) : List UInt8 :=
  i.opcode.toByte :: i.operands

@[simp] theorem length_opcode (i : Instruction) : i.opcode.length = i.length := by
  cases i <;> rfl

@[simp] theorem length_encode (i : Instruction) : i.encode.length = i.length := by
  cases i <;> rfl

/-- Writes an instruction over the start of a buffer and leaves the rest
as it is; nothing if the buffer is shorter than the instruction. -/
def encodeInto? (i : Instruction) (buffer : List UInt8) : Option (List UInt8) :=
  if i.length ≤ buffer.length then some (i.encode ++ buffer.drop i.length) else none

/-- The bytes of a run of instructions, one behind the other. -/
def assemble (program : List Instruction) : List UInt8 :=
  program.flatMap encode

@[simp] theorem length_assemble (program : List Instruction) :
    (assemble program).length = totalLength program := by
  induction program with
  | nil => rfl
  | cons i rest ih => simpa [assemble] using ih

end Instruction

-- ============================================================= reading

/-- Reads the operands that an opcode asks for from the bytes behind
it. -/
def Opcode.readOperands : Opcode → List UInt8 → Except DecodeError Instruction
  | .finish, _ => .ok .finish
  | .kill, _ => .ok .kill
  | .nop, _ => .ok .nop
  | .rmb, _ => .ok .rmb
  | .wmb, _ => .ok .wmb
  | .stz, _ => .ok .stz
  | .ld condition, _ => .ok (.ld condition)
  | .st condition, _ => .ok (.st condition)
  | .ldp kind, b :: _ => .ok (.ldp kind (b >>> 3))
  | .stp kind, b :: _ => .ok (.stp kind (b >>> 3))
  | .lp counter, b :: _ => .ok (.lp counter (b.toUInt16 + 1))
  | .lpend counter condition, b :: _ => .ok (.lpend counter condition b)
  | .wfp awaited, b :: _ => .ok (.wfp awaited (b >>> 3))
  | .flushp, b :: _ => .ok (.flushp (b >>> 3))
  | .sev, b :: _ => .ok (.sev (b >>> 3))
  | .wfe, b :: _ => .ok (.wfe (b >>> 3) (b &&& 2 != 0))
  | .addh register, b0 :: b1 :: _ => .ok (.addh register (Word.ofBytes16 b0 b1))
  | .mov, r :: b0 :: b1 :: b2 :: b3 :: _ =>
    match MoveTarget.ofByte? r with
    | some register => .ok (.mov register (Word.ofBytes32 b0 b1 b2 b3))
    | none => .error (.invalidOperand Opcode.mov.toByte r)
  | .go nonSecure, c :: b0 :: b1 :: b2 :: b3 :: _ =>
    .ok (.go (c &&& 7) (Word.ofBytes32 b0 b1 b2 b3) nonSecure)
  | opcode, operands => .error (.truncated opcode.length (operands.length + 1))

/-- The instruction at the start of the bytes. -/
def Instruction.decode : List UInt8 → Except DecodeError Instruction
  | [] => .error (.truncated 1 0)
  | byte :: operands =>
    match Opcode.ofByte? byte with
    | some opcode => opcode.readOperands operands
    | none => .error (.unknownOpcode byte)

end DmaController
