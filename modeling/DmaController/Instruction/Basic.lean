/-
The instructions of a DMA thread. An instruction is a mnemonic with its
operands as numbers of their own width; how it is laid out in bytes is
the business of `Encoding`, how it reads as assembly text that of
`Text`.

An operand type may be wider than the place the encoding has for it: a
peripheral or event number has five bits there, a channel number three,
and an iteration count is stored minus one in eight. `normalize` says
which instruction a thread actually sees when an operand does not fit,
and `InRange` when nothing is lost.
-/
namespace DmaController

-- ============================================================ operands

/-- When a load, a store or a loop end takes effect: always, or only if
the last awaited peripheral request was of one kind. -/
inductive Condition where
  | always
  | single
  | burst
  deriving DecidableEq

/-- The kind of peripheral request a peripheral load or store serves. -/
inductive RequestKind where
  | single
  | burst
  deriving DecidableEq

/-- What a wait for a peripheral waits for; `periph` leaves the choice
between single and burst to the peripheral. -/
inductive AwaitedRequest where
  | single
  | periph
  | burst
  deriving DecidableEq

/-- The registers a move can load. -/
inductive MoveTarget where
  | sourceAddress
  | channelControl
  | destinationAddress
  deriving DecidableEq

/-- The registers a half word can be added to. -/
inductive AddressRegister where
  | source
  | destination
  deriving DecidableEq

/-- The two loop counters of a channel thread. -/
inductive LoopCounter where
  | zero
  | one
  deriving DecidableEq

-- ======================================================== instructions

/-- One instruction, named by its mnemonic without the leading `DMA`;
`finish` is the one that ends a program. -/
inductive Instruction where
  | finish
  | kill
  | nop
  | rmb
  | wmb
  | stz
  | ld (condition : Condition)
  | st (condition : Condition)
  | ldp (kind : RequestKind) (periph : UInt8)
  | stp (kind : RequestKind) (periph : UInt8)
  /-- Opens a loop of `iterations` rounds, one to 256. -/
  | lp (counter : LoopCounter) (iterations : UInt16)
  /-- Closes a loop; `jump` is the distance in bytes from here back to
  the first instruction of the body. -/
  | lpend (counter : LoopCounter) (condition : Condition) (jump : UInt8)
  | wfp (awaited : AwaitedRequest) (periph : UInt8)
  | flushp (periph : UInt8)
  | sev (event : UInt8)
  | wfe (event : UInt8) (invalidate : Bool)
  | addh (register : AddressRegister) (amount : UInt16)
  | mov (register : MoveTarget) (value : UInt32)
  /-- Starts channel `channel` at `pc`, in the non-secure state if
  `nonSecure` is set. -/
  | go (channel : UInt8) (pc : UInt32) (nonSecure : Bool)
  deriving DecidableEq

namespace Instruction

/-- The number of bytes an instruction occupies. -/
def length : Instruction → Nat
  | finish | kill | nop | rmb | wmb | stz | ld _ | st _ => 1
  | ldp .. | stp .. | lp .. | lpend .. | wfp .. | flushp _ | sev _ | wfe .. => 2
  | addh .. => 3
  | mov .. | go .. => 6

/-- The length of the longest instruction. -/
def maxLength : Nat := 6

theorem length_pos (i : Instruction) : 0 < i.length := by
  cases i <;> simp [length]

theorem length_le_maxLength (i : Instruction) : i.length ≤ maxLength := by
  cases i <;> simp [length, maxLength]

/-- The bytes a run of instructions occupies. -/
def totalLength : List Instruction → Nat
  | [] => 0
  | i :: rest => i.length + totalLength rest

@[simp] theorem totalLength_nil : totalLength [] = 0 := rfl

@[simp] theorem totalLength_cons (i : Instruction) (rest : List Instruction) :
    totalLength (i :: rest) = i.length + totalLength rest :=
  rfl

@[simp] theorem totalLength_append (a b : List Instruction) :
    totalLength (a ++ b) = totalLength a + totalLength b := by
  induction a with
  | nil => simp
  | cons i rest ih => simp [ih, Nat.add_assoc]

-- ======================================================= normal forms

/-- The instruction a thread reads back: every operand reduced to what
its place in the encoding can hold. -/
def normalize : Instruction → Instruction
  | ldp kind periph => ldp kind (periph % 32)
  | stp kind periph => stp kind (periph % 32)
  | lp counter iterations => lp counter ((iterations - 1) % 256 + 1)
  | wfp awaited periph => wfp awaited (periph % 32)
  | flushp periph => flushp (periph % 32)
  | sev event => sev (event % 32)
  | wfe event invalidate => wfe (event % 32) invalidate
  | go channel pc nonSecure => go (channel % 8) pc nonSecure
  | other => other

/-- Every operand fits its place in the encoding. -/
def InRange : Instruction → Prop
  | ldp _ periph | stp _ periph | wfp _ periph | flushp periph => periph < 32
  | lp _ iterations => 1 ≤ iterations ∧ iterations ≤ 256
  | sev event | wfe event _ => event < 32
  | go channel _ _ => channel < 8
  | _ => True

@[simp] theorem length_normalize (i : Instruction) : i.normalize.length = i.length := by
  cases i <;> rfl

end Instruction

end DmaController
