/-
What a driver's conversations come to on an emulator it reaches: one that
answers the driver's window, is not halted, and has no more channels than
a debug instruction can name.

A state that is asked for is the state the thread is in, an instruction
that is executed is the controller's answer to it (`Controller.given`),
and neither lets any time pass. Time passes in the waits alone, a
millisecond each. A driver is attached to an emulator it reaches whose
time does not stand still; there, a channel that is about to stop has
stopped after a wait, whatever the other channels did in the meantime.
-/
import DmaController.Proofs.Bus.Reachable
import DmaController.Proofs.Controller.Debug
import DmaController.Proofs.Driver.Window

namespace DmaController

open Bus (Dialogue Emulator)
open Bus.Dialogue (hold_bind_ok hold_map hold_poll_now hold_poll_next
  hold_say_bind)

-- ============================================================= attached

/-- The emulator is the driver's: it answers the driver's window, and has
no more channels than a debug instruction can name. -/
structure Driver.Faces (d : Driver) (e : Emulator) : Prop where
  answers : e.Answers d
  few : e.controller.channels.length ≤ 8

/-- The driver can give it orders. -/
structure Driver.Reaches (d : Driver) (e : Emulator) : Prop extends
    d.Faces e where
  awake : e.controller.halted = false

/-- The emulator is one the driver can talk to. -/
structure Driver.Attached (d : Driver) (e : Emulator) : Prop where
  answers : e.Answers d
  awake : e.controller.halted = false
  few : e.controller.channels.length ≤ 8
  ticks : 1 ≤ e.stepsPerMs

theorem Driver.Attached.reaches {d : Driver} {e : Emulator}
    (h : d.Attached e) : d.Reaches e :=
  ⟨⟨h.answers, h.few⟩, h.awake⟩

theorem Driver.Attached.faces {d : Driver} {e : Emulator}
    (h : d.Attached e) : d.Faces e :=
  h.reaches.toFaces

/-- An emulator of the driver's controller is the driver's. -/
theorem Bus.Emulator.Kept.faces {config : DriverConfig} {e : Emulator}
    (h : e.Kept config.variant.capability config.base)
    (ends : config.Addressable) : config.driver.Faces e where
  answers := DriverConfig.answers h.base h.capability ends
  few := by
    rw [h.count]
    cases config.variant <;> decide

/-- An emulator of the driver's controller that answers at all is one
the driver can talk to. -/
theorem Bus.Emulator.Kept.attached {config : DriverConfig} {e : Emulator}
    (h : e.Kept config.variant.capability config.base)
    (ends : config.Addressable) (awake : e.controller.halted = false)
    (ticks : 1 ≤ e.stepsPerMs) :
    config.driver.Attached e where
  answers := (h.faces ends).answers
  awake := awake
  few := (h.faces ends).few
  ticks := ticks

/-- The emulator with its controller in another state. -/
def Bus.Emulator.become (e : Emulator) (c : Controller) : Emulator :=
  { e with controller := c }

/-- A millisecond is as many ticks as the emulator makes of it. -/
theorem Bus.Emulator.slice_one (e : Emulator) :
    e.slice 1 = e.stepsPerMs.toNat := by
  have one : (1 : UInt32).toNat = 1 := rfl
  have word := e.stepsPerMs.toNat_lt
  have size : UInt32.size = 2 ^ 32 := rfl
  rw [slice, one]
  omega

/-- The emulator a millisecond later. -/
def Bus.Emulator.later (e : Emulator) : Emulator :=
  e.run (e.slice 1)

namespace Driver

variable {d : Driver} {e : Emulator} {n : UInt8} {ch : Channel}

/-- An emulator is the driver's as long as its controller stays the same
kind of controller. -/
theorem Faces.become (h : d.Faces e) {c : Controller}
    (same : c.capability = e.controller.capability)
    (count : c.channels.length = e.controller.channels.length) :
    d.Faces (e.become c) where
  answers := h.answers.of_same rfl same
  few := Nat.le_trans (Nat.le_of_eq count) h.few

theorem Faces.run (h : d.Faces e) (steps : Nat) : d.Faces (e.run steps) where
  answers := h.answers
  few := by
    have count : (e.run steps).controller.channels.length =
        e.controller.channels.length := Controller.length_runChannels _
    rw [count]
    exact h.few

theorem Reaches.become (h : d.Reaches e) {c : Controller}
    (same : c.capability = e.controller.capability)
    (halted : c.halted = e.controller.halted)
    (count : c.channels.length = e.controller.channels.length) :
    d.Reaches (e.become c) :=
  ⟨h.toFaces.become same count, halted.trans h.awake⟩

theorem Attached.become (h : d.Attached e) {c : Controller}
    (same : c.capability = e.controller.capability)
    (halted : c.halted = e.controller.halted)
    (count : c.channels.length = e.controller.channels.length) :
    d.Attached (e.become c) :=
  have reaches := h.reaches.become same halted count
  ⟨reaches.answers, reaches.awake, reaches.few, h.ticks⟩

theorem Attached.run (h : d.Attached e) (steps : Nat) :
    d.Attached (e.run steps) :=
  have faces := h.faces.run steps
  ⟨faces.answers, h.awake, faces.few, h.ticks⟩

theorem Attached.later (h : d.Attached e) : d.Attached e.later :=
  h.run _

theorem Attached.slice_pos (h : d.Attached e) : 1 ≤ e.slice 1 := by
  rw [Emulator.slice_one]
  exact UInt32.le_iff_toNat_le.1 h.ticks

-- ============================================================ registers

theorem hold_read (h : e.Answers d) {register : UInt64}
    (inside : register < Register.windowSize) :
    (d.read register).hold Emulator.platform e =
      (.ok (e.controller.read register), e) := by
  show (Except.ok (e.read32 (d.registers + register)), e) = _
  rw [Emulator.read32, h register inside]

/-- A write reaches the controller through the driver's window. -/
theorem hold_write (h : e.Answers d) {register : UInt64}
    (inside : register < Register.windowSize) (value : UInt32) :
    (d.write register value).hold Emulator.platform e =
      (.ok (), e.become (e.controller.write d.security register value)) := by
  show (Except.ok (), e.write32 (d.registers + register) value) = _
  rw [Emulator.write32, h register inside]
  rfl

theorem csr_inside : ∀ n : UInt8, Register.csr n < Register.windowSize :=
  forall_byte (by decide +kernel)

theorem ftr_inside : ∀ n : UInt8, Register.ftr n < Register.windowSize :=
  forall_byte (by decide +kernel)

theorem cpc_inside : ∀ n : UInt8, Register.cpc n < Register.windowSize :=
  forall_byte (by decide +kernel)

theorem hold_state_manager (h : e.Answers d) :
    (d.state .manager).hold Emulator.platform e =
      (.ok e.controller.manager.threadState, e) := by
  have read :=
    hold_read h (show Register.dsr < Register.windowSize by decide)
  rw [state, hold_bind_ok _ read, Controller.read_dsr]
  exact congrArg (fun state => (Except.ok state, e))
    (ManagerState.ofStatus_code _)

theorem hold_state_channel (h : d.Faces e)
    (there : e.controller.channels[n.toNat]? = some ch) :
    (d.state (.channel n)).hold Emulator.platform e =
      (.ok ch.status.threadState, e) := by
  have few : e.controller.channels.length ≤ Controller.maxChannels :=
    Nat.le_trans h.few (by decide)
  have read := hold_read h.answers (csr_inside n)
  rw [state, hold_bind_ok _ read, Controller.read_csr few there]
  exact congrArg (fun state => (Except.ok state, e))
    (Controller.ofStatus_statusWord n ch)

theorem hold_faultInfo_manager (h : e.Answers d) :
    (d.faultInfo .manager).hold Emulator.platform e =
      (.ok (.manager e.controller.manager.faultBits, 0), e) := by
  have fault :=
    hold_read h (show Register.ftrd < Register.windowSize by decide)
  have pc :=
    hold_read h (show Register.dpc < Register.windowSize by decide)
  have named :
      (FaultRegister.manager <$> d.read Register.ftrd).hold
          Emulator.platform e =
        (.ok (.manager e.controller.manager.faultBits), e) := by
    rw [hold_map, fault]
    rfl
  rw [faultInfo, hold_bind_ok _ named, programCounter, hold_bind_ok _ pc]
  rfl

-- ========================================================= instructions

/-- The debug interface of a controller that is not halted is idle. -/
theorem hold_awaitDebugIdle (h : d.Reaches e) :
    d.awaitDebugIdle.hold Emulator.platform e = (.ok (), e) := by
  have read := hold_read h.answers
    (show Register.dbgstatus < Register.windowSize by decide)
  rw [Controller.read_dbgstatus, h.awake] at read
  rw [awaitDebugIdle, hold_bind_ok _ (hold_poll_now read rfl)]
  rfl

/-- An instruction that is executed is given to the controller. -/
theorem hold_execute (h : d.Reaches e) (i : Instruction) (thread : Thread) :
    (d.execute i thread).hold Emulator.platform e =
      (.ok (), e.become (e.controller.given d.security i thread)) := by
  have first := hold_write h.answers
    (show Register.dbginst0 < Register.windowSize by decide)
    (debugInst0 i thread)
  rw [Controller.write_dbginst0] at first
  have told := h.become
    (c := { e.controller with debugInst0 := debugInst0 i thread }) rfl rfl rfl
  have second := hold_write told.answers
    (show Register.dbginst1 < Register.windowSize by decide) (debugInst1 i)
  rw [Controller.write_dbginst1] at second
  have told := h.become (c := e.controller.told i thread) rfl rfl rfl
  have third := hold_write told.answers
    (show Register.dbgcmd < Register.windowSize by decide) 0
  rw [Controller.write_dbgcmd] at third
  rw [execute, hold_say_bind, hold_bind_ok _ (hold_awaitDebugIdle h),
    hold_bind_ok _ first, hold_bind_ok _ second, hold_say_bind]
  refine Eq.trans third ?_
  exact congrArg (fun c => (Except.ok (), e.become c))
    (Controller.command_told h.awake ..)

-- ================================================================ waits

theorem channel_later (h : d.Attached e)
    (there : e.controller.channels[n.toNat]? = some ch) :
    ∃ k left, e.later.controller.channels[n.toNat]? =
      some (ch.run e.controller.capability (k + 1) left).1 := by
  obtain ⟨k, slice⟩ := Nat.exists_eq_add_of_le' h.slice_pos
  obtain ⟨left, ran⟩ := Controller.channel_run there e.memory (k + 1)
  refine ⟨k, left, ?_⟩
  rw [← ran, ← slice]
  rfl

/-- A wait for a channel that is about to reach a state. -/
theorem hold_settle_later (h : d.Attached e) (patient : 1 ≤ d.settleTimeoutMs)
    (there : e.controller.channels[n.toNat]? = some ch) {next : Channel}
    (after : e.later.controller.channels[n.toNat]? = some next)
    (accept : ThreadState → Bool)
    (rejected : accept ch.status.threadState = false)
    (accepted : accept next.status.threadState = true) :
    (d.settle (.channel n) accept).hold Emulator.platform e =
      (.ok next.status.threadState, e.later) :=
  hold_poll_next (hold_state_channel h.faces there) rejected rfl
    (hold_state_channel h.later.faces after) accepted
    (UInt32.le_iff_toNat_le.1 patient)

end Driver

end DmaController
