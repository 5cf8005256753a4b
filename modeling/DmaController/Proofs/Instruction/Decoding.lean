/-
Reading back what was written. An encoding in front of any other bytes
decodes to the normal form of the instruction, so code can be read from
memory without knowing where it ends; an instruction whose operands are
in range is its own normal form and is read back as it was.

From one instruction the statement grows to a program: the listing of
an assembled program has an entry for every instruction, at the sum of
the lengths before it.
-/
import DmaController.Instruction.Listing

namespace DmaController

-- ======================================================= operand bytes

/-- A byte is one of 256: what holds of all their numbers holds of all
bytes. -/
theorem forall_byte {P : UInt8 → Prop} (h : ∀ n : Fin 256, P (UInt8.ofFin n))
    (b : UInt8) : P b :=
  h b.toFin

/-- The length and the opcode found by the first byte are those of the one
table, for every byte; where there is no length there is no opcode. -/
theorem Opcode.tables_agree (byte : UInt8) :
    lengthOf? byte = (ofByte? byte).map length ∧
      (if (lengthOf? byte).isSome then ofRange? byte else none) =
        ofByte? byte :=
  forall_byte (P := fun byte => lengthOf? byte = (ofByte? byte).map length ∧
    (if (lengthOf? byte).isSome then ofRange? byte else none) = ofByte? byte)
    (by decide +kernel) byte

/-- A number in the high five bits comes back modulo 32. -/
theorem high_bits_roundtrip (b : UInt8) : b <<< 3 >>> 3 = b % 32 :=
  forall_byte (P := fun b => b <<< 3 >>> 3 = b % 32) (by decide +kernel) b

/-- The flag of a wait does not disturb the event above it. -/
theorem event_roundtrip (b : UInt8) (flag : Bool) :
    (b <<< 3 ||| if flag then 2 else 0) >>> 3 = b % 32 := by
  cases flag
  · exact forall_byte (P := fun b => (b <<< 3 ||| 0) >>> 3 = b % 32)
      (by decide +kernel) b
  · exact forall_byte (P := fun b => (b <<< 3 ||| 2) >>> 3 = b % 32)
      (by decide +kernel) b

/-- Nor does the event disturb the flag. -/
theorem event_flag_roundtrip (b : UInt8) (flag : Bool) :
    ((b <<< 3 ||| if flag then 2 else 0) &&& 2 != 0) = flag := by
  cases flag
  · exact forall_byte (P := fun b => ((b <<< 3 ||| 0) &&& 2 != 0) = false)
      (by decide +kernel) b
  · exact forall_byte (P := fun b => ((b <<< 3 ||| 2) &&& 2 != 0) = true)
      (by decide +kernel) b

theorem channel_roundtrip (b : UInt8) : b &&& 7 &&& 7 = b % 8 :=
  forall_byte (P := fun b => b &&& 7 &&& 7 = b % 8) (by decide +kernel) b

/-- A round count, stored minus one in a byte, comes back as itself if
it was one of 1 to 256. -/
theorem rounds_roundtrip (n : UInt16) :
    (n - 1).toUInt8.toUInt16 + 1 = (n - 1) % 256 + 1 := by
  apply UInt16.toNat_inj.1
  simp only [UInt16.toNat_add, UInt8.toNat_toUInt16, UInt16.toNat_toUInt8,
    UInt16.toNat_mod]
  rfl

-- ======================================================= one instruction

namespace Instruction

/-- The operands of an instruction are read back in normal form,
whatever follows them. -/
theorem readOperands_operands (i : Instruction) (rest : List UInt8) :
    i.opcode.readOperands (i.operands ++ rest) = .ok i.normalize := by
  cases i with
  | finish | kill | nop | rmb | wmb | stz | ld | st | lpend => rfl
  | ldp kind periph =>
      exact congrArg (Except.ok <| Instruction.ldp kind ·)
        (high_bits_roundtrip periph)
  | stp kind periph =>
      exact congrArg (Except.ok <| Instruction.stp kind ·)
        (high_bits_roundtrip periph)
  | lp counter rounds =>
      exact congrArg (Except.ok <| Instruction.lp counter ·)
        (rounds_roundtrip rounds)
  | wfp awaited periph =>
      exact congrArg (Except.ok <| Instruction.wfp awaited ·)
        (high_bits_roundtrip periph)
  | flushp periph =>
      exact congrArg (Except.ok <| Instruction.flushp ·)
        (high_bits_roundtrip periph)
  | sev event =>
      exact congrArg (Except.ok <| Instruction.sev ·)
        (high_bits_roundtrip event)
  | wfe event invalidate =>
      show Except.ok (Instruction.wfe _ _) = Except.ok (Instruction.wfe _ _)
      rw [event_roundtrip, event_flag_roundtrip]
  | addh register amount =>
      exact congrArg (Except.ok <| Instruction.addh register ·)
        (Word.ofBytes16_bytes amount)
  | mov register value =>
      cases register <;>
        exact congrArg (Except.ok <| Instruction.mov _ ·)
          (Word.ofBytes32_bytes value)
  | go channel pc nonSecure =>
      show Except.ok (Instruction.go _ _ _) = Except.ok (Instruction.go _ _ _)
      rw [channel_roundtrip, Word.ofBytes32_bytes]

/-- An encoding decodes to the instruction's normal form, whatever
follows it. -/
theorem decode_encode_append (i : Instruction) (rest : List UInt8) :
    decode (i.encode ++ rest) = .ok i.normalize := by
  rw [encode, List.cons_append, decode, Opcode.ofByte?_toByte]
  exact readOperands_operands i rest

/-- A number below a power of two is its own remainder. -/
theorem byte_mod_of_lt {a b : UInt8} (h : a < b) : a % b = a := by
  apply UInt8.toNat_inj.1
  rw [UInt8.toNat_mod]
  exact Nat.mod_eq_of_lt (UInt8.lt_iff_toNat_lt.1 h)

/-- An instruction whose operands are in range loses nothing. -/
theorem InRange.normalize_eq {i : Instruction} (h : i.InRange) :
    i.normalize = i := by
  cases i with
  | ldp kind periph =>
      exact congrArg (Instruction.ldp kind ·) (byte_mod_of_lt h)
  | stp kind periph =>
      exact congrArg (Instruction.stp kind ·) (byte_mod_of_lt h)
  | lp counter rounds =>
      obtain ⟨low, high⟩ := h
      have low := UInt16.le_iff_toNat_le.1 low
      have high := UInt16.le_iff_toNat_le.1 high
      have one : (1 : UInt16).toNat = 1 := rfl
      have page : (256 : UInt16).toNat = 256 := rfl
      refine congrArg (Instruction.lp counter ·) (UInt16.toNat_inj.1 ?_)
      rw [UInt16.toNat_add, UInt16.toNat_mod, UInt16.toNat_sub_of_le _ _ ‹_›,
        one, page]
      omega
  | wfp awaited periph =>
      exact congrArg (Instruction.wfp awaited ·) (byte_mod_of_lt h)
  | flushp periph => exact congrArg (Instruction.flushp ·) (byte_mod_of_lt h)
  | sev event => exact congrArg (Instruction.sev ·) (byte_mod_of_lt h)
  | wfe event invalidate =>
      exact congrArg (Instruction.wfe · invalidate) (byte_mod_of_lt h)
  | go channel pc nonSecure =>
      exact congrArg (Instruction.go · pc nonSecure) (byte_mod_of_lt h)
  | finish | kill | nop | rmb | wmb | stz | ld | st | lpend | addh | mov => rfl

-- ============================================================ a program

@[simp] theorem assemble_nil : assemble [] = [] := rfl

@[simp] theorem assemble_cons (i : Instruction) (program : List Instruction) :
    assemble (i :: program) = i.encode ++ assemble program := rfl

@[simp] theorem assemble_append (a b : List Instruction) :
    assemble (a ++ b) = assemble a ++ assemble b :=
  List.flatMap_append

/-- The listing a program should have: each instruction's normal form at
the sum of the lengths before it. -/
def entriesFrom (offset : Nat) : List Instruction → List ListingEntry
  | [] => []
  | i :: program =>
    ⟨offset, .ok i.normalize⟩ :: entriesFrom (offset + i.length) program

/-- The listing of an assembled program is that of its instructions. -/
theorem disassembleFrom_assemble (program : List Instruction) (offset : Nat) :
    disassembleFrom offset (assemble program) = entriesFrom offset program := by
  induction program generalizing offset with
  | nil => rw [assemble_nil, disassembleFrom, dif_pos rfl, entriesFrom]
  | cons i program ih =>
      have nonempty : assemble (i :: program) ≠ [] := by
        rw [assemble_cons, encode]
        exact List.cons_ne_nil _ _
      have next : (i.encode ++ assemble program).drop i.length =
          assemble program := by
        rw [← length_encode, List.drop_left]
      rw [disassembleFrom, dif_neg nonempty, assemble_cons,
        decode_encode_append]
      simp only [length_normalize, next, ih, entriesFrom]

/-- An instruction somewhere in a program has its entry. -/
theorem mem_entriesFrom_append (before : List Instruction) (i : Instruction)
    (after : List Instruction) (offset : Nat) :
    ⟨offset + totalLength before, .ok i.normalize⟩ ∈
      entriesFrom offset (before ++ i :: after) := by
  induction before generalizing offset with
  | nil => exact List.mem_cons_self
  | cons j before ih =>
      rw [List.cons_append, entriesFrom, totalLength_cons, ← Nat.add_assoc]
      exact List.mem_cons_of_mem _ (ih _)

end Instruction

end DmaController
