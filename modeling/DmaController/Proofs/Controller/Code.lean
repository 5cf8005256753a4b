/-
Instructions in memory and the channel that executes them. If the bytes
of an instruction stand where the program counter points, that
instruction is fetched, whatever stands behind it and wherever memory
ends; what it then does is read off the instruction alone.

Program counters are words, places are numbers. A place below the end
of the bus is the number of exactly one word, and stepping over an
instruction is addition on both sides.
-/
import DmaController.Proofs.Controller.Course
import DmaController.Proofs.Instruction.Decoding
import DmaController.Proofs.Memory.View

namespace DmaController

-- =============================================================== words

/-- A number on the bus is the number of its word. -/
theorem toNat_word {a : Nat} (h : a < UInt32.size) :
    (UInt32.ofNat a).toNat = a :=
  UInt32.toNat_ofNat_of_lt' h

theorem toUInt64_word {a : Nat} (h : a < UInt32.size) :
    (UInt32.ofNat a).toUInt64 = UInt64.ofNat a := by
  apply UInt64.toNat_inj.1
  rw [UInt32.toNat_toUInt64, toNat_word h,
    UInt64.toNat_ofNat_of_lt' (Nat.lt_trans h (by decide))]

theorem word_add (a b : Nat) :
    UInt32.ofNat a + UInt32.ofNat b = UInt32.ofNat (a + b) :=
  (UInt32.ofNat_add a b).symm

namespace Instruction

-- ======================================================= places of code

/-- The fault of an instruction whose data does not lie in memory. -/
def dataFault? : Instruction → Option ChannelFault
  | ld _ | ldp .. => some .readError
  | st _ | stp .. | stz => some .writeError
  | _ => none

/-- Nothing else accesses data. -/
theorem dataAccess?_of_plain {i : Instruction} (plain : i.dataFault? = none)
    (servesBurst : Bool) : i.dataAccess? servesBurst = none := by
  cases i <;> first | rfl | cases plain

end Instruction

namespace Channel

variable {cap : Capability} {ch : Channel} {shared : Shared} {i : Instruction}
  {a : Nat}

/-- The instruction whose bytes stand at the program counter is
fetched. -/
theorem fetch_eq {m : Memory} {program : List Instruction}
    (code : m.HoldsBytes a (Instruction.assemble (i :: program)))
    (range : i.InRange) (below : a + i.length ≤ UInt32.size)
    (pc : ch.pc = UInt32.ofNat a) : ch.fetch m = .ok i := by
  have small : a < UInt32.size := by
    have := i.length_pos
    omega
  obtain ⟨here, -⟩ := Memory.holdsBytes_append.1 code
  have address : ch.pc.toUInt64.toNat = a := by
    rw [pc, UInt32.toNat_toUInt64, toNat_word small]
  have held := here.holds
  rw [Instruction.length_encode] at held
  -- the fetched bytes start with the encoding, and decoding looks no further
  have start :
      (m.readAvailable ch.pc.toUInt64 Instruction.maxLength).take i.length =
        i.encode := by
    apply List.ext_getElem?
    intro k
    by_cases hk : k < i.length
    · rw [List.getElem?_take_of_lt hk,
        Memory.getElem?_readAvailable (show m.Holds _ i.length by rwa [address])
          i.length_le_maxLength hk,
        address, here k (by rwa [Instruction.length_encode])]
    · rw [List.getElem?_take, if_neg hk, List.getElem?_eq_none]
      rw [Instruction.length_encode]
      omega
  rw [fetch, ← List.take_append_drop i.length (m.readAvailable _ _), start,
    Instruction.decode_encode_append, range.normalize_eq]

/-- What an instruction without a data access does. -/
theorem execute_plain (fetched : ch.fetch shared.memory = .ok i)
    (accepted : ch.refusal? cap i = none)
    (plain : i.dataAccess? ch.servesBurst = none) :
    ch.execute cap shared =
      ((ch.proceed shared.events i).1,
        { shared with events := (ch.proceed shared.events i).2 }) := by
  simp only [execute, fetched, accepted, perform, plain]

theorem execute_access (fetched : ch.fetch shared.memory = .ok i)
    (accepted : ch.refusal? cap i = none) :
    ch.execute cap shared = ch.perform cap shared i := by
  simp only [execute, fetched, accepted]

theorem pc_past (pc : ch.pc = UInt32.ofNat a) :
    (ch.past i).pc = UInt32.ofNat (a + i.length) := by
  rw [past, pc, word_add]

@[simp] theorem counter_past (c : LoopCounter) :
    (ch.past i).counter c = ch.counter c := by
  cases c <;> rfl

/-- A counter that is set reads back, and the other one is as before. -/
theorem counter_setCounter (c c' : LoopCounter) (value : UInt8) :
    (ch.setCounter c value).counter c' =
      if c = c' then value else ch.counter c' := by
  cases c <;> cases c' <;> rfl

@[simp] theorem pc_setCounter (c : LoopCounter) (value : UInt8) :
    (ch.setCounter c value).pc = ch.pc := by cases c <;> rfl
@[simp] theorem control_setCounter (c : LoopCounter) (value : UInt8) :
    (ch.setCounter c value).control = ch.control := by cases c <;> rfl
@[simp] theorem nonSecure_setCounter (c : LoopCounter) (value : UInt8) :
    (ch.setCounter c value).nonSecure = ch.nonSecure := by cases c <;> rfl

end Channel

end DmaController
