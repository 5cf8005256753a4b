/-
What the conversations of a driver look like to a device, whatever the
device answers. A driver gives orders: it sees the debug interface idle
and then makes three writes, nothing between them (`submission`). All
else it does is look and wait.

Each function of the driver has one lemma here. It takes a transcript
apart, into looks at named registers, at most one order, and the state
that was seen last, which is the one that decided how it went on. That
the registers are named matters: an answer seen at one of them is still
the last one seen there after looks at others.
-/
import DmaController.Driver.Context
import DmaController.Proofs.Bus.Transcript
import DmaController.Proofs.Instruction.Decoding

namespace DmaController

open Bus (Access Dialogue Silent lastWord? firstWord? looks looks_concat
  watches_looks)
open Bus.Dialogue.Transcript (of_bind of_pure of_fail of_say of_read32
  of_write32 of_poll)

-- ============================================================ registers

/-- The status register of a thread. -/
def Thread.statusRegister : Thread → UInt64
  | .manager => Register.dsr
  | .channel number => Register.csr number

/-- Where it is found why a thread faulted. -/
def Thread.faultRegister : Thread → UInt64
  | .manager => Register.ftrd
  | .channel number => Register.ftr number

/-- Where it is found how far a thread came. -/
def Thread.pcRegister : Thread → UInt64
  | .manager => Register.dpc
  | .channel number => Register.cpc number

/-- The causes that a fault register of a thread shows. -/
def Thread.faultOf : Thread → UInt32 → FaultRegister
  | .manager => .manager
  | .channel _ => .channel

/-- The status of a channel is at no other register of the protocol. -/
theorem csr_not_mem : ∀ n : UInt8,
    Register.csr n ∉ [Register.dsr, Register.ftrd, Register.dpc,
      Register.dbgstatus] :=
  forall_byte (by decide +kernel)

theorem Thread.statusRegister_ne_dbgstatus (thread : Thread) :
    thread.statusRegister ≠ Register.dbgstatus := by
  cases thread with
  | manager => decide
  | channel n =>
      intro same
      have mem : Register.csr n ∈ [Register.dsr, Register.ftrd, Register.dpc,
          Register.dbgstatus] := by
        rw [show Register.csr n = Register.dbgstatus from same]
        decide
      exact csr_not_mem n mem

namespace Driver

variable {d : Driver} {thread other : Thread} {i : Instruction}
  {state : ThreadState} {status : UInt32} {registers : List UInt64}
  {trace first second : List Access}

/-- Nothing but looks at some registers, and time between them. -/
def Watches (d : Driver) (registers : List UInt64) : List Access → Prop :=
  Bus.Watches (registers.map (d.registers + ·))

/-- The state a thread was last seen in. -/
def lastState? (d : Driver) (thread : Thread) (trace : List Access) :
    Option ThreadState :=
  (lastWord? (d.registers + thread.statusRegister) trace).map
    (.ofStatus thread)

/-- The state a thread is first seen in. -/
def firstState? (d : Driver) (thread : Thread) (trace : List Access) :
    Option ThreadState :=
  (firstWord? (d.registers + thread.statusRegister) trace).map
    (.ofStatus thread)

/-- Two looks at why a thread faulted, and where. -/
def faultLooks (d : Driver) (thread : Thread) (bits pc : UInt32) :
    List Access :=
  [⟨.read32 (d.registers + thread.faultRegister), bits⟩,
    ⟨.read32 (d.registers + thread.pcRegister), pc⟩]

/-- The last thing done is a look at a thread. -/
def EndsSeeing (d : Driver) (thread : Thread) (state : ThreadState)
    (trace : List Access) : Prop :=
  ∃ before word,
    trace = before ++
      [⟨.read32 (d.registers + thread.statusRegister), word⟩] ∧
    ThreadState.ofStatus thread word = state

theorem EndsSeeing.lastState? (h : d.EndsSeeing thread state trace) :
    d.lastState? thread trace = some state := by
  obtain ⟨before, word, rfl, rfl⟩ := h
  simp [Driver.lastState?]

theorem EndsSeeing.append (first : List Access)
    (h : d.EndsSeeing thread state second) :
    d.EndsSeeing thread state (first ++ second) := by
  obtain ⟨before, word, rfl, seen⟩ := h
  exact ⟨first ++ before, word, (List.append_assoc ..).symm, seen⟩

theorem lastState?_append :
    d.lastState? thread (first ++ second) =
      (d.lastState? thread second).or (d.lastState? thread first) := by
  simp only [lastState?, Bus.lastWord?_append]
  cases lastWord? (d.registers + thread.statusRegister) second <;> rfl

theorem firstState?_append :
    d.firstState? thread (first ++ second) =
      (d.firstState? thread first).or (d.firstState? thread second) := by
  simp only [firstState?, Bus.firstWord?_append]
  cases firstWord? (d.registers + thread.statusRegister) first <;> rfl

/-- A look at other registers tells nothing about a thread. -/
theorem Watches.lastState?_eq_none (h : d.Watches registers trace)
    (elsewhere : thread.statusRegister ∉ registers) :
    d.lastState? thread trace = none := by
  have apart : d.registers + thread.statusRegister ∉
      registers.map (d.registers + ·) := by
    intro mem
    obtain ⟨register, here, same⟩ := List.mem_map.1 mem
    exact elsewhere ((UInt64.add_right_inj _).1 same ▸ here)
  rw [lastState?, Bus.Watches.lastWord?_eq_none h apart]
  rfl

theorem Watches.append (h : d.Watches registers first)
    (h' : d.Watches registers second) :
    d.Watches registers (first ++ second) :=
  Bus.Watches.append h h'

theorem watches_faultLooks (bits pc : UInt32) :
    d.Watches [thread.faultRegister, thread.pcRegister]
      (d.faultLooks thread bits pc) :=
  Bus.Watches.append (Bus.watches_read (List.mem_cons_self ..) bits)
    (Bus.watches_read (List.mem_cons_of_mem _ (List.mem_singleton_self _)) pc)

theorem watches_read {register : UInt64} (here : register ∈ registers)
    (word : UInt32) :
    d.Watches registers [⟨.read32 (d.registers + register), word⟩] :=
  Bus.watches_read (List.mem_map_of_mem here) word

-- ============================================================== threads

theorem state_eq (d : Driver) (thread : Thread) :
    d.state thread =
      Dialogue.read32 (d.registers + thread.statusRegister) >>= fun word =>
        pure (ThreadState.ofStatus thread word) := by
  cases thread <;> rfl

/-- Asking for a state is one look. -/
theorem of_state {α : Type} {f : ThreadState → Drive α}
    {outcome : Except DriverError α}
    (h : (d.state thread >>= f).Transcript trace outcome) :
    ∃ look seen rest, d.Watches [thread.statusRegister] look ∧
      d.EndsSeeing thread seen look ∧ d.firstState? thread look = some seen ∧
      (f seen).Transcript rest outcome ∧ trace = look ++ rest := by
  rw [state_eq, LawfulMonad.bind_assoc] at h
  obtain ⟨word, rest, goes, rfl⟩ := of_read32 h
  refine ⟨[⟨.read32 (d.registers + thread.statusRegister), word⟩], _, rest,
    watches_read (List.mem_singleton_self _) word, ⟨[], word, rfl, rfl⟩, ?_,
    goes, rfl⟩
  rw [firstState?, Bus.firstWord?_read]
  rfl

/-- Waiting for a state is looking at its thread, and the last look
decides. -/
theorem of_awaitState {accept : ThreadState → Bool} {patience : Patience}
    {outcome : Except DriverError ThreadState}
    (h : (d.awaitState thread accept patience).Transcript trace outcome) :
    d.Watches [thread.statusRegister] trace ∧
      ∃ seen, d.EndsSeeing thread seen trace ∧
        (accept seen = true ∧ outcome = .ok seen ∨
          accept seen = false ∧
            ∃ ms, outcome = .error (.timeout thread seen ms)) := by
  obtain ⟨ms, waits, polls⟩ : ∃ ms waits,
      (poll (Dialogue.read32 (d.registers + thread.statusRegister) >>=
        fun word => pure (ThreadState.ofStatus thread word)) accept
        (fun last => Dialogue.fail (.timeout thread last ms))
        waits).Transcript trace outcome := by
    rw [← state_eq]
    cases patience with
    | millis ms => exact ⟨ms, _, h⟩
    | unbounded => exact ⟨_, _, h⟩
  obtain ⟨before, word, after, rfl, -, ended⟩ := of_poll polls
  have watches : d.Watches [thread.statusRegister]
      (looks (d.registers + thread.statusRegister) (before ++ [word])) :=
    watches_looks _
  have ends : d.EndsSeeing thread (.ofStatus thread word)
      (looks (d.registers + thread.statusRegister) (before ++ [word])) :=
    ⟨_, word, looks_concat before word, rfl⟩
  rcases ended with ⟨accepted, -, rfl, rfl⟩ | ⟨rejected, -, failed⟩
  · rw [List.append_nil]
    exact ⟨watches, _, ends, Or.inl ⟨accepted, rfl⟩⟩
  · obtain ⟨rfl, rfl⟩ := of_fail failed
    rw [List.append_nil]
    exact ⟨watches, _, ends, Or.inr ⟨rejected, ms, rfl⟩⟩

/-- Asking for a fault is two looks. -/
theorem of_faultInfo {α : Type} {f : FaultRegister × UInt32 → Drive α}
    {outcome : Except DriverError α}
    (h : (d.faultInfo thread >>= f).Transcript trace outcome) :
    ∃ bits pc rest, (f (thread.faultOf bits, pc)).Transcript rest outcome ∧
      trace = d.faultLooks thread bits pc ++ rest := by
  cases thread with
  | manager =>
      rw [faultInfo, map_eq_pure_bind, LawfulMonad.bind_assoc,
        LawfulMonad.bind_assoc] at h
      obtain ⟨bits, rest, reads, rfl⟩ := of_read32 h
      rw [pure_bind, LawfulMonad.bind_assoc] at reads
      obtain ⟨pc, rest, goes, rfl⟩ := of_read32 reads
      exact ⟨bits, pc, rest, goes, rfl⟩
  | channel n =>
      rw [faultInfo, map_eq_pure_bind, LawfulMonad.bind_assoc,
        LawfulMonad.bind_assoc] at h
      obtain ⟨bits, rest, reads, rfl⟩ := of_read32 h
      rw [pure_bind, LawfulMonad.bind_assoc] at reads
      obtain ⟨pc, rest, goes, rfl⟩ := of_read32 reads
      exact ⟨bits, pc, rest, goes, rfl⟩

-- ========================================================= submissions

/-- Busy is bit 0 of the debug status. -/
theorem isBusy_eq_testBit (status : UInt32) :
    isBusy status = status.toNat.testBit 0 := by
  have bit : (status &&& 1).toNat = status.toNat % 2 :=
    (UInt32.toNat_and ..).trans (Nat.and_one_is_mod _)
  rw [Bool.eq_iff_iff, Nat.testBit_zero, decide_eq_true_iff, isBusy,
    bne_iff_ne, ne_eq, ← UInt32.toNat_inj, bit, UInt32.toNat_zero]
  omega

/-- The accesses that give an instruction to a thread: a look that finds
the debug interface idle, and the three writes. -/
def submission (d : Driver) (status : UInt32) (i : Instruction)
    (thread : Thread) : List Access :=
  [⟨.read32 (d.registers + Register.dbgstatus), status⟩,
    ⟨.write32 (d.registers + Register.dbginst0) (debugInst0 i thread), ()⟩,
    ⟨.write32 (d.registers + Register.dbginst1) (debugInst1 i), ()⟩,
    ⟨.write32 (d.registers + Register.dbgcmd) 0, ()⟩]

/-- A submission sees no state. -/
@[simp] theorem lastState?_submission :
    d.lastState? other (d.submission status i thread) = none := by
  have apart : d.registers + Register.dbgstatus ≠
      d.registers + other.statusRegister := by
    intro same
    exact other.statusRegister_ne_dbgstatus
      ((UInt64.add_right_inj _).1 same).symm
  simp [lastState?, lastWord?, submission, Access.wordAt?, apart]

/-- Waiting for the debug interface is looking at it, until it is idle or
patience is at an end. -/
theorem of_awaitDebugIdle {α : Type} {f : Unit → Drive α}
    {outcome : Except DriverError α}
    (h : (d.awaitDebugIdle >>= f).Transcript trace outcome) :
    d.Watches [Register.dbgstatus] trace ∧
        outcome = .error (.debugTimeout d.debugTimeoutMs) ∨
      ∃ waits status rest, d.Watches [Register.dbgstatus] waits ∧
        isBusy status = false ∧ (f ()).Transcript rest outcome ∧
        trace = waits ++
          ⟨.read32 (d.registers + Register.dbgstatus), status⟩ :: rest := by
  rw [awaitDebugIdle, LawfulMonad.bind_assoc] at h
  rcases of_bind h with ⟨e, gaveUp, rfl⟩ |
    ⟨status, first, rest, polls, goes, rfl⟩
  · rw [← bind_pure (d.read _)] at gaveUp
    obtain ⟨before, word, after, rfl, -, ended⟩ := of_poll gaveUp
    rcases ended with ⟨-, -, -, failed⟩ | ⟨-, -, failed⟩
    · cases failed
    · have stops := of_say failed
      obtain ⟨rfl, same⟩ := of_fail stops
      cases same
      rw [List.append_nil]
      exact Or.inl ⟨watches_looks _, rfl⟩
  · rw [← bind_pure (d.read _)] at polls
    rw [pure_bind] at goes
    obtain ⟨before, word, after, rfl, -, ended⟩ := of_poll polls
    have watches : d.Watches [Register.dbgstatus]
        (looks (d.registers + Register.dbgstatus) (before ++ [word])) :=
      watches_looks _
    rw [looks_concat] at watches
    have waits := (List.forall_mem_append.1 watches).1
    rcases ended with ⟨idle, -, rfl, same⟩ | ⟨-, -, failed⟩
    · cases same
      refine Or.inr ⟨_, status, rest, waits, ?_, goes, ?_⟩
      · simpa using idle
      · simp [looks_concat]
    · have stops := of_say failed
      obtain ⟨-, same⟩ := of_fail stops
      cases same

/-- Executing an instruction is waiting for the debug interface and then
submitting it, or giving up before anything is written. -/
theorem of_execute {α : Type} {f : Unit → Drive α}
    {outcome : Except DriverError α}
    (h : (d.execute i thread >>= f).Transcript trace outcome) :
    d.Watches [Register.dbgstatus] trace ∧
        outcome = .error (.debugTimeout d.debugTimeoutMs) ∨
      ∃ waits status rest, d.Watches [Register.dbgstatus] waits ∧
        isBusy status = false ∧ (f ()).Transcript rest outcome ∧
        trace = waits ++ d.submission status i thread ++ rest := by
  simp only [execute, LawfulMonad.bind_assoc] at h
  rcases of_awaitDebugIdle (of_say h) with gaveUp |
    ⟨waits, status, rest, watches, idle, goes, rfl⟩
  · exact Or.inl gaveUp
  · obtain ⟨second, half, rfl⟩ := of_write32 goes
    obtain ⟨third, both, rfl⟩ := of_write32 half
    obtain ⟨last, ends, rfl⟩ := of_write32 (of_say both)
    refine Or.inr ⟨waits, status, last, watches, idle, ends, ?_⟩
    simp [submission]

end Driver

end DmaController
