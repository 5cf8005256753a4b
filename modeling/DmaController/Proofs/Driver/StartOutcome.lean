/-
What a start comes to on an emulator, in every state that can come
about. There are three outcomes and the state of the channel decides
between them: a running channel makes the driver busy and nothing
happens; a secure program from the non-secure window is refused by the
manager; and in all other cases the channel runs the program from its
beginning, as it would after reset.

The history of the channel does not show in any of them. Nor does that
of the manager: a fault that an earlier start left there is cleared, and
not mistaken for one of this start. And a start shows nowhere else: other
channels and memory are as if the time it took had just passed.

All this needs a driver that is answered. Through a window that ends
with the address space the first look at the channel panics, and nothing
is started.
-/
import DmaController.Proofs.Driver.Attempts
import DmaController.Proofs.Driver.Start

namespace DmaController

open Bus (Dialogue Emulator)
open Bus.Dialogue (hold_bind_ok)

/-- A context after a conversation: an error leaves it as it was. -/
def Context.after (context : Context) : Except DriverError Context → Context
  | .ok next => next
  | .error _ => context

namespace Driver

variable {d : Driver} {e : Emulator} {n : UInt8} {ch : Channel}

/-- A start on a running channel does nothing. -/
theorem hold_startOn_busy (h : d.Attached e)
    (there : e.controller.channels[n.toNat]? = some ch) (runs : ch.Runs)
    (program : Microprogram) :
    (d.startOn n program).hold Emulator.platform e =
      (.error (.busy (.channel n) ch.status.threadState), e) := by
  rw [startOn_eq, hold_bind_ok _ (hold_settling_busy h there runs)]
  rcases runs with runs | ⟨event, runs⟩ <;> rw [runs] <;> rfl

/-- A start on any other channel is a launch behind the settling. -/
theorem hold_startOn_idle (h : d.Attached e) (patient : 1 ≤ d.settleTimeoutMs)
    (there : e.controller.channels[n.toNat]? = some ch) (idle : ¬ ch.Runs)
    (program : Microprogram) :
    ∃ ms ≤ 2, ∃ e', d.Settled n (e.after ms) e' ∧
      (d.startOn n program).hold Emulator.platform e =
        (d.launching n program .stopped).hold Emulator.platform e' := by
  obtain ⟨ms, most, e', settles, settled⟩ := hold_settling h patient there idle
  refine ⟨ms, most, e', settled, ?_⟩
  rw [startOn_eq, hold_bind_ok _ settles]

end Driver

/-- What a start of a program may come to, given the channel as it was
before. -/
structure StartOutcome (d : Driver) (e : Emulator) (context : Context)
    (n : UInt8) (program : Microprogram) (ch : Channel)
    (outcome : Except DriverError Context) (e' : Emulator) : Prop where
  /-- A running channel is refused, and nothing happens at all. -/
  busy : ch.Runs →
    outcome = .error (.busy (.channel n) ch.status.threadState) ∧ e' = e ∧
      context.after outcome = context
  /-- A secure program from the non-secure side makes the manager fault,
  and the channel is left stopped. -/
  refused : ¬ ch.Runs → d.security = .nonSecure ∧ program.nonSecure = false →
    outcome = .error (.fault .manager 0 none
        (.manager
          (ManagerFault.startError.flag ||| ManagerFault.debugInstr.flag))) ∧
      (∃ ch', e'.controller.channels[n.toNat]? = some ch' ∧
        ch'.status = .stopped) ∧
      context.after outcome = context
  /-- Everything else starts the program, on a channel as after reset. -/
  started : ¬ ch.Runs →
    ¬ (d.security = .nonSecure ∧ program.nonSecure = false) →
    outcome = .ok { context with programBase := some program.busAddress } ∧
      e'.controller.channels[n.toNat]? =
        some (.started program.busAddress program.nonSecure) ∧
      e'.controller.manager = .stopped
  /-- Everything but the channel and the manager is as it would be
  without the start, but for the time it takes. -/
  elsewhere : ∃ ms ≤ 2, (e.after ms).SameElsewhere n.toNat e'

/-- A driver starts a program as it should: there is the channel, the
conversation comes to an end, and that is one of the outcomes. -/
def Driver.StartsAsPromised (d : Driver) (e : Emulator) (context : Context)
    (n : UInt8) (program : Microprogram) : Prop :=
  ∃ ch outcome e', e.controller.channels[n.toNat]? = some ch ∧
    (d.start context program).attempt (d.on Emulator.platform) e =
      (some outcome, e') ∧
    StartOutcome d e context n program ch outcome e'

/-- Whatever happened before, a start comes to what is promised. -/
theorem start_as_promised {config : DriverConfig} {e : Emulator}
    {context : Context} {n : UInt8}
    (reach : Emulator.Reachable config.variant.capability config.base e)
    (ends : config.Addressable) (awake : e.controller.halted = false)
    (ticks : 1 ≤ e.stepsPerMs) (patient : 1 ≤ config.settleTimeoutMs)
    (on : context.thread = .channel n)
    (exist : n < config.variant.capability.numChannels)
    (program : Microprogram) :
    config.driver.StartsAsPromised e context n program := by
  have attached := reach.kept.attached ends awake ticks
  have small : n.toNat < e.controller.channels.length := by
    rw [reach.kept.count]
    exact UInt8.lt_iff_toNat_lt.1 exist
  obtain ⟨ch, there⟩ : ∃ ch, e.controller.channels[n.toNat]? = some ch :=
    ⟨_, List.getElem?_eq_getElem small⟩
  have start : config.driver.start context program =
      config.driver.startOn n program := by
    rw [Driver.start, on]
  -- What the start comes to if it is held is what it comes to.
  have comes {outcome : Except DriverError Context} {e' : Emulator}
      (holds : (config.driver.startOn n program).hold Emulator.platform e =
        (outcome, e'))
      (right : StartOutcome config.driver e context n program ch outcome e') :
      config.driver.StartsAsPromised e context n program := by
    refine ⟨ch, outcome, e', there, ?_, right⟩
    exact attached.answers.attempt (Driver.asks_start ..)
      (by rw [start, holds])
  by_cases runs : ch.Runs
  · refine comes (Driver.hold_startOn_busy attached there runs program) ?_
    exact ⟨fun _ => ⟨rfl, rfl, rfl⟩, fun idle => absurd runs idle,
      fun idle => absurd runs idle, 0, by decide, .refl there⟩
  · obtain ⟨ms, most, e₁, settled, launch⟩ :=
      Driver.hold_startOn_idle attached patient there runs program
    obtain ⟨old, here, stopped⟩ := settled.stopped
    obtain ⟨inst0, inst1, launched⟩ :=
      Driver.hold_launching settled.attached.reaches here stopped program
    have holds := launch.trans launched
    by_cases refuses : config.driver.Refuses program
    · rw [if_pos refuses] at holds
      refine comes holds ⟨fun runs' => absurd runs' runs, ?_,
        fun _ accepts => absurd refuses accepts, ms, most,
        settled.elsewhere.trans (Emulator.sameElsewhere_besides here ..)⟩
      exact fun _ _ => ⟨rfl, ⟨old, here, stopped⟩, rfl⟩
    · rw [if_neg refuses] at holds
      refine comes holds ⟨fun runs' => absurd runs' runs,
        fun _ refuses' => absurd refuses' refuses, ?_, ms, most,
        settled.elsewhere.trans ⟨.stopped, inst0, inst1, _, rfl⟩⟩
      refine fun _ _ => ⟨?_, Controller.channel_setChannel here _, rfl⟩
      rw [← on]

/-- A start right after reset. -/
theorem start_as_promised_after_reset :
    (DriverConfig.mk .pl330 0x20000000 .secure 100 100).driver.StartsAsPromised
      (.new .pl330 0x20000000 (.zeroed 0 0x100)) { thread := .channel 0 } 0
      ⟨[0], 0, false, ⟨.copy, [], 0⟩⟩ := by
  have reach : Emulator.Reachable
      (DriverConfig.mk .pl330 0x20000000 .secure 100 100).variant.capability
      (DriverConfig.mk .pl330 0x20000000 .secure 100 100).base
      (.new .pl330 0x20000000 (.zeroed 0 0x100)) := .new _
  exact start_as_promised reach (by decide) rfl (by decide) (by decide) rfl
    (by decide) _

/-- That both windows exist is not enough: a start through one that ends
with the address space panics. -/
theorem start_stopped_at_the_end :
    ¬ ∀ (config : DriverConfig) (e : Emulator) (context : Context) (n : UInt8)
      (program : Microprogram),
      Emulator.Reachable config.variant.capability config.base e →
      config.variant.capability.WindowsExist config.base →
      e.controller.halted = false → 1 ≤ e.stepsPerMs →
      1 ≤ config.settleTimeoutMs → context.thread = .channel n →
      n < config.variant.capability.numChannels →
      config.driver.StartsAsPromised e context n program := by
  intro promised
  obtain ⟨ch, outcome, e', -, started, -⟩ := promised
    ⟨.pl330, 0xffffffffffffe000, .nonSecure, 100, 100⟩
    (.new .pl330 0xffffffffffffe000 (.zeroed 0 0x100)) { thread := .channel 0 }
    0 ⟨[0], 0, true, ⟨.copy, [], 0⟩⟩ (.new _) (by decide) rfl (by decide)
    (by decide) rfl (by decide)
  cases started.symm.trans
    (DriverConfig.attempt_start rfl rfl (by decide) rfl _)

end DmaController
