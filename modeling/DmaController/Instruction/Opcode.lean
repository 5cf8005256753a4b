/-
The first byte of an instruction. An opcode is a mnemonic together with
the operands that live inside the first byte: the condition of a load,
the number of a loop counter, the security state of a start.

`toByte` is the table everything goes by. Reading a byte back is a search
in the list of all opcodes, so the two directions cannot disagree: the
lemmas at the end say that every opcode is in the list, that no two share
a byte, and hence that `ofByte?` inverts `toByte` exactly.

A decoder has two more tables, of the lengths by the first byte and of the
opcodes by ranges of it (`lengthOf?`, `ofRange?`). They are here too, to
be compared with the one table.
-/
import DmaController.Instruction.Basic

namespace DmaController

/-- What the first byte of an instruction says. -/
inductive Opcode where
  | finish
  | kill
  | nop
  | rmb
  | wmb
  | stz
  | ld (condition : Condition)
  | st (condition : Condition)
  | ldp (kind : RequestKind)
  | stp (kind : RequestKind)
  | lp (counter : LoopCounter)
  | lpend (counter : LoopCounter) (condition : Condition)
  | wfp (awaited : AwaitedRequest)
  | flushp
  | sev
  | wfe
  | addh (register : AddressRegister)
  | mov
  | go (nonSecure : Bool)
  deriving DecidableEq

/-- A condition in the low two bits of an opcode: bit 0 says that there
is one, bit 1 which. -/
def Condition.bits : Condition → UInt8
  | .always => 0
  | .single => 1
  | .burst => 3

/-- A request kind in bit 1 of an opcode. -/
def RequestKind.bits : RequestKind → UInt8
  | .single => 0
  | .burst => 2

/-- What is awaited, in the low two bits of an opcode. -/
def AwaitedRequest.bits : AwaitedRequest → UInt8
  | .single => 0
  | .periph => 1
  | .burst => 2

namespace Opcode

/-- The first byte. -/
def toByte : Opcode → UInt8
  | finish => 0x00
  | kill => 0x01
  | ld condition => 0x04 ||| condition.bits
  | st condition => 0x08 ||| condition.bits
  | stz => 0x0c
  | rmb => 0x12
  | wmb => 0x13
  | nop => 0x18
  | lp .zero => 0x20
  | lp .one => 0x22
  | ldp kind => 0x25 ||| kind.bits
  | stp kind => 0x29 ||| kind.bits
  | wfp awaited => 0x30 ||| awaited.bits
  | sev => 0x34
  | flushp => 0x35
  | wfe => 0x36
  | lpend .zero condition => 0x38 ||| condition.bits
  | lpend .one condition => 0x3c ||| condition.bits
  | addh .source => 0x54
  | addh .destination => 0x56
  | go nonSecure => if nonSecure then 0xa2 else 0xa0
  | mov => 0xbc

/-- Every opcode, each once. -/
def all : List Opcode :=
  [finish, kill, ld .always, ld .single, ld .burst, st .always, st .single, st .burst, stz, rmb,
    wmb, nop, lp .zero, lp .one, ldp .single, ldp .burst, stp .single, stp .burst, wfp .single,
    wfp .periph, wfp .burst, sev, flushp, wfe, lpend .zero .always, lpend .zero .single,
    lpend .zero .burst, lpend .one .always, lpend .one .single, lpend .one .burst, addh .source,
    addh .destination, go false, go true, mov]

/-- The opcode with this first byte, if there is one. -/
def ofByte? (byte : UInt8) : Option Opcode :=
  all.find? fun opcode => opcode.toByte == byte

/-- The length of an instruction that starts with this opcode. -/
def length : Opcode → Nat
  | finish | kill | nop | rmb | wmb | stz | ld _ | st _ => 1
  | ldp _ | stp _ | lp _ | lpend .. | wfp _ | flushp | sev | wfe => 2
  | addh _ => 3
  | mov | go _ => 6

-- ======================================================= by first bytes

/-- The length of an instruction by its first byte. -/
def lengthOf? (byte : UInt8) : Option Nat :=
  if byte ∈ [0x00, 0x01, 0x04, 0x05, 0x07, 0x08, 0x09, 0x0b, 0x0c, 0x12, 0x13, 0x18] then
    some 1
  else if byte ∈ [0x20, 0x22, 0x25, 0x27, 0x29, 0x2b, 0x30, 0x31, 0x32, 0x34, 0x35, 0x36] then
    some 2
  else if byte ∈ [0x38, 0x39, 0x3b, 0x3c, 0x3d, 0x3f] then some 2
  else if byte ∈ [0x54, 0x56] then some 3
  else if byte ∈ [0xa0, 0xa2, 0xbc] then some 6
  else none

/-- The condition in the low two bits of a byte; one pattern is none. -/
def condition? (byte : UInt8) : Option Condition :=
  if byte &&& 3 = 0 then some .always
  else if byte &&& 3 = 1 then some .single
  else if byte &&& 3 = 3 then some .burst
  else none

/-- The loop counter in the low bit of a byte. -/
def counter (byte : UInt8) : LoopCounter :=
  if byte &&& 1 = 0 then .zero else .one

/-- The request kind in bit 1 of a byte. -/
def requestKind (byte : UInt8) : RequestKind :=
  if byte &&& 2 = 0 then .single else .burst

/-- What is awaited, in the low two bits of a byte. -/
def awaited (byte : UInt8) : AwaitedRequest :=
  if byte &&& 3 = 0 then .single else if byte &&& 3 = 1 then .periph else .burst

/-- The opcode by the range its byte lies in. -/
def ofRange? (byte : UInt8) : Option Opcode :=
  if byte = 0x00 then some finish
  else if byte = 0x01 then some kill
  else if byte = 0x18 then some nop
  else if byte = 0x12 then some rmb
  else if byte = 0x13 then some wmb
  else if byte = 0x0c then some stz
  else if 0x04 ≤ byte ∧ byte ≤ 0x07 then (condition? byte).map ld
  else if 0x08 ≤ byte ∧ byte ≤ 0x0b then (condition? byte).map st
  else if byte ∈ [0x20, 0x22] then some (lp (counter (byte >>> 1)))
  else if byte ∈ [0x25, 0x27, 0x29, 0x2b] then
    some (if byte &&& ~~~2 = 0x25 then ldp (requestKind byte) else stp (requestKind byte))
  else if 0x30 ≤ byte ∧ byte ≤ 0x32 then some (wfp (awaited byte))
  else if byte = 0x34 then some sev
  else if byte = 0x35 then some flushp
  else if byte = 0x36 then some wfe
  else if 0x38 ≤ byte ∧ byte ≤ 0x3f then (condition? byte).map (lpend (counter (byte >>> 2)))
  else if byte ∈ [0x54, 0x56] then
    some (addh (if byte &&& 2 = 0 then .source else .destination))
  else if byte ∈ [0xa0, 0xa2] then some (go (byte &&& 2 != 0))
  else if byte = 0xbc then some mov
  else none

-- ================================================= the table is a table

theorem mem_all (opcode : Opcode) : opcode ∈ all := by
  cases opcode with
  | ld condition | st condition => cases condition <;> decide
  | ldp kind | stp kind => cases kind <;> decide
  | lp counter => cases counter <;> decide
  | lpend counter condition => cases counter <;> cases condition <;> decide
  | wfp awaited => cases awaited <;> decide
  | addh register => cases register <;> decide
  | go nonSecure => cases nonSecure <;> decide
  | _ => decide

theorem toByte_injective_on_all :
    ∀ a ∈ all, ∀ b ∈ all, a.toByte = b.toByte → a = b := by
  decide

theorem toByte_injective {a b : Opcode} (h : a.toByte = b.toByte) : a = b :=
  toByte_injective_on_all a (mem_all a) b (mem_all b) h

/-- Reading a first byte back finds exactly the opcode that has it. -/
theorem ofByte?_eq_some_iff {byte : UInt8} {opcode : Opcode} :
    ofByte? byte = some opcode ↔ opcode.toByte = byte := by
  constructor
  · intro h
    have := List.find?_some h
    simpa using this
  · intro h
    cases found : ofByte? byte with
    | none =>
      have := List.find?_eq_none.1 found opcode (mem_all opcode)
      simp [h] at this
    | some other =>
      have := List.find?_some found
      have same : other.toByte = byte := by simpa using this
      rw [toByte_injective (same.trans h.symm)]

@[simp] theorem ofByte?_toByte (opcode : Opcode) : ofByte? opcode.toByte = some opcode :=
  ofByte?_eq_some_iff.2 rfl

end Opcode

end DmaController
