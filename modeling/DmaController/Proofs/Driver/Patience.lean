/-
How long a driver waits. It waits in two ways only: for a thread to
reach a state, and for the debug interface to be idle. Either wait is a
poll, so it looks once more often than it waits, and what it ends with
is the first look that is accepted or the one after which patience is at
an end. This is a matter of the driver alone, and holds against a device
that answers anything.

The conversations of a context are made of such waits. Each has one
bound here, the sum over the waits on its longest path: a kill may wait
for a fault to complete and for the debug interface, and a start for
three threads to settle (its own twice, and the manager) and for the
debug interface with each of three instructions (two kills and the go).
-/
import DmaController.Proofs.Bus.Time
import DmaController.Proofs.Driver.Orders

namespace DmaController

open Bus (Access Dialogue Platform elapsed looks)
open Bus.Dialogue (Within within_pure within_fail within_say within_read32
  within_write32 within_poll pollCounting pollCounting_eq transcript_hold)
open Bus.Dialogue.Transcript (of_poll of_fail of_say)

namespace Driver

variable {α : Type} {d : Driver} {thread : Thread} {i : Instruction}
  {a : Nat}

-- =============================================================== waits

/-- A wait that looked at a register: nothing it saw before the last
word was accepted, and either this one is, or it is the one more than
the patience allows milliseconds. -/
structure Waits (address : UInt64) (accept : UInt32 → Bool) (patience : Nat)
    (trace : List Access) (before : List UInt32) (last : UInt32) : Prop where
  looks : trace = looks address (before ++ [last])
  rejected : ∀ word ∈ before, accept word = false
  patient : if accept last then before.length ≤ patience
    else before.length = patience

/-- The time that passed is one millisecond for each look but the
last. -/
theorem Waits.elapsed {address : UInt64} {accept : UInt32 → Bool}
    {patience : Nat} {trace : List Access} {before : List UInt32}
    {last : UInt32} (h : Waits address accept patience trace before last) :
    elapsed trace = before.length := by
  rw [h.looks, Bus.elapsed_looks]

/-- Waiting for a state. -/
theorem waits_awaitState {accept : ThreadState → Bool} {ms : UInt32}
    {trace : List Access} {outcome : Except DriverError ThreadState}
    (h : (d.awaitState thread accept (.millis ms)).Transcript trace outcome) :
    ∃ before last, Waits (d.registers + thread.statusRegister)
        (accept ∘ .ofStatus thread) ms.toNat trace before last ∧
      outcome = if accept (.ofStatus thread last)
        then .ok (.ofStatus thread last)
        else .error (.timeout thread (.ofStatus thread last) ms) := by
  rw [awaitState, state_eq] at h
  obtain ⟨before, last, after, rfl, rejected, ended⟩ := of_poll h
  refine ⟨before, last, ?_⟩
  rcases ended with ⟨accepted, short, rfl, rfl⟩ | ⟨refused, patient, failed⟩
  · exact ⟨⟨List.append_nil _, rejected, by simpa [accepted] using short⟩,
      (if_pos accepted).symm⟩
  · obtain ⟨rfl, rfl⟩ := of_fail failed
    exact ⟨⟨List.append_nil _, rejected, by simpa [refused] using patient⟩,
      by simp [refused]⟩

/-- Waiting for the debug interface. -/
theorem waits_awaitDebugIdle {trace : List Access}
    {outcome : Except DriverError Unit}
    (h : d.awaitDebugIdle.Transcript trace outcome) :
    ∃ before last, Waits (d.registers + Register.dbgstatus)
        (fun status => !isBusy status) d.debugTimeoutMs.toNat trace before
        last ∧
      outcome = if isBusy last then .error (.debugTimeout d.debugTimeoutMs)
        else .ok () := by
  rw [awaitDebugIdle, ← bind_pure (d.read _)] at h
  rcases Bus.Dialogue.Transcript.of_bind h with ⟨e, gaveUp, rfl⟩ |
    ⟨status, first, second, polls, ends, rfl⟩
  · obtain ⟨before, last, after, rfl, rejected, ended⟩ := of_poll gaveUp
    rcases ended with ⟨-, -, -, failed⟩ | ⟨refused, patient, failed⟩
    · cases failed
    · have stops := of_say failed
      obtain ⟨rfl, same⟩ := of_fail stops
      cases same
      have busy : isBusy last = true := by simpa using refused
      exact ⟨before, last, ⟨List.append_nil _, rejected,
        by simpa [busy] using patient⟩, (if_pos busy).symm⟩
  · obtain ⟨before, last, after, rfl, rejected, ended⟩ := of_poll polls
    obtain ⟨rfl, rfl⟩ := Bus.Dialogue.Transcript.of_pure ends
    rcases ended with ⟨accepted, short, rfl, same⟩ | ⟨-, -, failed⟩
    · have idle : isBusy last = false := by simpa using accepted
      exact ⟨before, last, ⟨by simp, rejected, by simpa [idle] using short⟩,
        by simp [idle]⟩
    · have stops := of_say failed
      cases (of_fail stops).2

-- ============================================================== counting

/-- The driver may count the milliseconds it waits for a state in a
word, and report the count. -/
theorem counting_awaitState (accept : ThreadState → Bool) (ms : UInt32)
    (overflow : Drive ThreadState) :
    pollCounting (d.state thread) accept
        (fun last waited => Dialogue.fail (.timeout thread last waited))
        overflow ms 0 =
      d.awaitState thread accept (.millis ms) :=
  pollCounting_eq _ _ _ _ (UInt32.zero_le)

/-- And those it waits for the debug interface. -/
theorem counting_awaitDebugIdle (overflow : Drive UInt32) :
    (do
      let halted := fun _ _ => do
        Dialogue.say (.error s!"{d.capability.name}: DMAC halted")
        Dialogue.fail (.debugTimeout d.debugTimeoutMs)
      let _ ← pollCounting (d.read Register.dbgstatus)
        (fun status => !isBusy status) halted overflow d.debugTimeoutMs 0) =
      d.awaitDebugIdle := by
  simp only [awaitDebugIdle, pollCounting_eq _ _ _ _ (UInt32.zero_le)]
  rfl

-- ================================================================ parts

/-- Asking for a state takes no time. -/
theorem within_state : (d.state thread).Within 0 := by
  rw [state_eq]
  exact (within_read32 _).next fun word => within_pure _

theorem within_awaitState (accept : ThreadState → Bool) (ms : UInt32) :
    (d.awaitState thread accept (.millis ms)).Within ms.toNat :=
  within_poll within_state (fun _ => within_fail _) _

theorem within_settle (accept : ThreadState → Bool) :
    (d.settle thread accept).Within d.settleTimeoutMs.toNat :=
  within_awaitState accept _

theorem within_awaitDebugIdle :
    d.awaitDebugIdle.Within d.debugTimeoutMs.toNat :=
  (within_poll (within_read32 _)
    (fun _ => (within_say _).next fun _ => within_fail _) _).bind
    fun _ => within_pure _

/-- Nor does asking for a fault. -/
theorem within_faultInfo : (d.faultInfo thread).Within 0 := by
  intro trace outcome goes
  rw [← bind_pure (d.faultInfo thread)] at goes
  obtain ⟨bits, pc, rest, ends, rfl⟩ := of_faultInfo goes
  obtain ⟨rfl, -⟩ := Bus.Dialogue.Transcript.of_pure ends
  exact Nat.le_refl 0

/-- An instruction may wait for the debug interface. -/
theorem within_execute :
    (d.execute i thread).Within d.debugTimeoutMs.toNat := by
  refine (within_say _).next fun _ =>
    within_awaitDebugIdle.bind (b := 0) fun _ => ?_
  exact (within_write32 _ _).next fun _ => (within_write32 _ _).next fun _ =>
    (within_say _).next fun _ => within_write32 _ _

theorem within_settleFaultCompleting (state : ThreadState) :
    (d.settleFaultCompleting thread state).Within
      d.settleTimeoutMs.toNat := by
  unfold settleFaultCompleting
  split
  · exact within_settle _
  · exact (within_pure _).mono (Nat.zero_le _)

theorem within_killFaulting (state : ThreadState) :
    (d.killFaulting thread state).Within d.debugTimeoutMs.toNat := by
  unfold killFaulting
  split
  · exact within_execute.bind fun _ => within_pure _
  · exact (within_pure _).mono (Nat.zero_le _)

theorem within_settleStopping (state : ThreadState) :
    (d.settleStopping thread state).Within d.settleTimeoutMs.toNat := by
  unfold settleStopping
  split
  · exact within_settle _
  · exact (within_pure _).mono (Nat.zero_le _)

theorem within_clearManager :
    d.clearManager.Within
      (d.debugTimeoutMs.toNat + d.settleTimeoutMs.toNat) := by
  refine within_state.next fun state => ?_
  split
  · exact within_faultInfo.next fun fault => (within_say _).next fun _ =>
      within_execute.bind fun _ => (within_settle _).bind
        fun _ => within_pure _
  · exact (within_pure _).mono (Nat.zero_le _)

theorem within_go (channel : UInt8) (program : Microprogram) :
    (d.go channel program).Within d.debugTimeoutMs.toNat := by
  refine within_execute.bind (b := 0) fun _ =>
    within_state.next fun state => ?_
  split
  · exact within_faultInfo.next fun fault =>
      (within_say _).next fun _ => within_fail _
  · exact within_pure _

-- ======================================================== conversations

theorem within_finish (context : Context) (ms : UInt32) :
    (d.finish context (.millis ms)).Within ms.toNat := by
  refine (within_awaitState _ ms).bind (b := 0) fun state => ?_
  split
  · exact within_pure _
  · exact within_faultInfo.next fun fault =>
      (within_say _).next fun _ => within_fail _

theorem within_kill (context : Context) :
    (d.kill context).Within
      (d.settleTimeoutMs.toNat + d.debugTimeoutMs.toNat) := by
  refine within_state.next fun state =>
    (within_settleFaultCompleting state).bind fun settled => ?_
  split
  · exact within_execute.bind (b := 0) fun _ =>
      (within_say _).next fun _ => within_pure _
  · exact (within_pure _).mono (Nat.zero_le _)

/-- The waits of a start on its longest path, one after the other. -/
theorem within_start (context : Context) (program : Microprogram) :
    (d.start context program).Within
      (3 * (d.settleTimeoutMs.toNat + d.debugTimeoutMs.toNat)) := by
  have sum : 3 * (d.settleTimeoutMs.toNat + d.debugTimeoutMs.toNat) =
      d.settleTimeoutMs.toNat + (d.debugTimeoutMs.toNat +
        (d.settleTimeoutMs.toNat + ((d.debugTimeoutMs.toNat +
          d.settleTimeoutMs.toNat) + (d.debugTimeoutMs.toNat + 0)))) := by
    omega
  rw [start, sum]
  split
  · exact (within_fail _).mono (Nat.zero_le _)
  · refine within_state.next fun state =>
      (within_settleFaultCompleting state).bind fun settled =>
      (within_killFaulting settled).bind fun killed =>
      (within_settleStopping killed).bind fun last => ?_
    split
    · exact within_clearManager.bind fun _ => (within_go _ program).bind
        fun _ => (within_say _).next fun _ => within_pure _
    · exact (within_fail _).mono (Nat.zero_le _)
    · exact (within_fail _).mono (Nat.zero_le _)

-- ======================================================= on a platform

/-- A driver waits for a bounded time on every platform, whatever it
answers. A wait for a state of a thread looks once before each
millisecond it lets pass and once after the last; it ends with the first
state that is accepted, or with a timeout that carries the state seen
last, after exactly the milliseconds it was given. A wait for the debug
interface, whose status has its flag in bit 0, goes the same way. So a finish takes no longer than it was
told, a kill no longer than one settling and one debug timeout, and a
start no longer than three of each; and counting these milliseconds in a
word never fills it. -/
theorem waits_bounded {σ : Type} (d : Driver) (p : Platform σ) (s : σ) :
    (∀ status, isBusy status = status.toNat.testBit 0) ∧
    (∀ thread accept ms, ∃ before last,
      Waits (d.registers + thread.statusRegister)
        (accept ∘ ThreadState.ofStatus thread) ms.toNat
        ((d.awaitState thread accept (.millis ms)).accesses p s) before last ∧
      elapsed ((d.awaitState thread accept (.millis ms)).accesses p s) =
        before.length ∧
      ((d.awaitState thread accept (.millis ms)).hold p s).1 =
        if accept (.ofStatus thread last) then .ok (.ofStatus thread last)
        else .error (.timeout thread (.ofStatus thread last) ms)) ∧
    (∃ before last,
      Waits (d.registers + Register.dbgstatus) (fun status => !isBusy status)
        d.debugTimeoutMs.toNat (d.awaitDebugIdle.accesses p s) before last ∧
      elapsed (d.awaitDebugIdle.accesses p s) = before.length ∧
      (d.awaitDebugIdle.hold p s).1 =
        if isBusy last then .error (.debugTimeout d.debugTimeoutMs)
        else .ok ()) ∧
    (∀ context ms,
      elapsed ((d.finish context (.millis ms)).accesses p s) ≤ ms.toNat) ∧
    (∀ context, elapsed ((d.kill context).accesses p s) ≤
      d.settleTimeoutMs.toNat + d.debugTimeoutMs.toNat) ∧
    (∀ context program, elapsed ((d.start context program).accesses p s) ≤
      3 * (d.settleTimeoutMs.toNat + d.debugTimeoutMs.toNat)) ∧
    (∀ thread accept ms overflow,
      pollCounting (d.state thread) accept
          (fun last waited => Dialogue.fail (.timeout thread last waited))
          overflow ms 0 =
        d.awaitState thread accept (.millis ms)) ∧
    (∀ overflow,
      (do
        let halted := fun _ _ => do
          Dialogue.say (.error s!"{d.capability.name}: DMAC halted")
          Dialogue.fail (.debugTimeout d.debugTimeoutMs)
        let _ ← pollCounting (d.read Register.dbgstatus)
          (fun status => !isBusy status) halted overflow
          d.debugTimeoutMs 0) =
        d.awaitDebugIdle) := by
  refine ⟨isBusy_eq_testBit, fun thread accept ms => ?_, ?_,
    fun context ms => (within_finish context ms).accesses p s,
    fun context => (within_kill context).accesses p s,
    fun context program => (within_start context program).accesses p s,
    fun thread => counting_awaitState, counting_awaitDebugIdle⟩
  · obtain ⟨before, last, waits, ends⟩ := waits_awaitState
      (transcript_hold p (d.awaitState thread accept (.millis ms)) s)
    exact ⟨before, last, waits, waits.elapsed, ends⟩
  · obtain ⟨before, last, waits, ends⟩ := waits_awaitDebugIdle
      (transcript_hold p d.awaitDebugIdle s)
    exact ⟨before, last, waits, waits.elapsed, ends⟩

end Driver

end DmaController
