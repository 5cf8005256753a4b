/-
What a kill comes to on an emulator, in every state that can come about.
A thread that has stopped or is about to is left alone. Any other one is
killed, a channel with a fault that is not yet final a millisecond later
than the rest, since that fault has to become final first. Either way the
thread has stopped or stops in its next tick, so a second kill finds
nothing to do, and waiting for the end takes a millisecond at most.

A killed channel has no part in anything until it is started again
(`Emulator.Quiet`); one that was not running when the kill began has had
none since then, so the wait for its fault makes no difference. The wait
shows nowhere else: other channels and memory are as if the time had just
passed.

All this needs a driver that is answered. Through a window that ends
with the address space the first look at the thread panics, and nothing
is killed.
-/
import DmaController.Proofs.Bus.Quiet
import DmaController.Proofs.Driver.Attempts
import DmaController.Proofs.Driver.Effects

namespace DmaController

open Bus (Dialogue Emulator Silent)
open Bus.Dialogue (accesses_bind_ok attempted_isPrefix hold_bind_ok
  hold_poll_now hold_poll_next)

/-- A context without a program. -/
def Context.cleared (context : Context) : Context :=
  { context with programBase := none }

theorem Context.cleared_eq {context : Context} {thread : Thread}
    (on : context.thread = thread) : context.cleared = { thread } := by
  rw [cleared, on]

/-- A channel that has ended does not run. -/
theorem Channel.Ended.not_runs {ch : Channel} (h : ch.Ended) : ¬ ch.Runs := by
  rintro (runs | ⟨event, runs⟩) <;> rcases h with h | h | h <;>
    cases h.symm.trans runs

namespace Driver

variable {d : Driver} {e : Emulator} {n : UInt8} {ch : Channel}
  {context : Context}

-- ============================================================= one order

/-- The emulator with a channel killed through the debug interface. -/
def killing (e : Emulator) (n : UInt8) (ch : Channel) : Emulator :=
  e.become ((e.controller.told .kill (.channel n)).setChannel n.toNat ch.killed)

theorem channel_killing (there : e.controller.channels[n.toNat]? = some ch) :
    (killing e n ch).controller.channels[n.toNat]? = some ch.killed :=
  List.getElem?_set_self (List.getElem?_eq_some_iff.1 there).1

theorem Attached.killing (h : d.Attached e) (n : UInt8) (ch : Channel) :
    d.Attached (killing e n ch) :=
  h.become rfl rfl List.length_set

theorem hold_execute_kill (h : d.Attached e)
    (there : e.controller.channels[n.toNat]? = some ch)
    (busy : ch.status ≠ .stopped) :
    (d.execute .kill (.channel n)).hold Emulator.platform e =
      (.ok (), killing e n ch) := by
  have small := Nat.lt_of_lt_of_le (List.getElem?_eq_some_iff.1 there).1 h.few
  have told := hold_execute h.reaches .kill (.channel n)
  rwa [Controller.given_kill_channel there small busy] at told

/-- The three writes of a kill start nothing. -/
theorem spares_killing (awake : e.controller.halted = false)
    (few : e.controller.channels.length ≤ 8)
    (there : e.controller.channels[n.toNat]? = some ch)
    (busy : ch.status ≠ .stopped) :
    e.Spares n.toNat (killing e n ch) := by
  have small := Nat.lt_of_lt_of_le (List.getElem?_eq_some_iff.1 there).1 few
  have first : e.Step (e.become { e.controller with
      debugInst0 := debugInst0 .kill (.channel n) }) := by
    have step := Emulator.Step.write (e := e) .secure Register.dbginst0
      (debugInst0 .kill (.channel n))
    rwa [Controller.write_dbginst0] at step
  have second : (e.become { e.controller with
      debugInst0 := debugInst0 .kill (.channel n) }).Step
        (e.become (e.controller.told .kill (.channel n))) := by
    have step := Emulator.Step.write (e := e.become { e.controller with
      debugInst0 := debugInst0 .kill (.channel n) }) .secure
      Register.dbginst1 (debugInst1 .kill)
    rwa [Controller.write_dbginst1] at step
  have third : (e.become (e.controller.told .kill (.channel n))).Step
      (killing e n ch) := by
    have step := Emulator.Step.write
      (e := e.become (e.controller.told .kill (.channel n))) .secure
      Register.dbgcmd 0
    rw [Controller.write_dbgcmd] at step
    have given := Controller.command_told awake .secure .kill (.channel n)
    rw [Controller.given_kill_channel there small busy] at given
    rw [killing, ← given]
    exact step
  refine ((Emulator.Spares.refl.step first ?_).step second ?_).step third ?_
  · exact Controller.not_starts_of_same rfl
  · exact Controller.not_starts_of_same rfl
  · intro starts
    have executing := starts.2
    rw [channel_killing there] at executing
    cases executing

-- ================================================================= kill

/-- A kill of a channel that has ended is one look. -/
theorem hold_kill_ended (h : d.Attached e)
    (there : e.controller.channels[n.toNat]? = some ch) (ended : ch.Ended)
    (on : context.thread = .channel n) :
    (d.kill context).hold Emulator.platform e = (.ok context.cleared, e) ∧
      Silent ((d.kill context).accesses Emulator.platform e) := by
  have look := hold_state_channel h.faces there
  have quiet : Silent
      ((d.state (.channel n)).accesses Emulator.platform e) :=
    silent_state (Bus.Dialogue.transcript_hold ..)
  rw [kill, on, Context.cleared_eq on, hold_bind_ok _ look,
    accesses_bind_ok _ look]
  rcases ended with status | status | status <;> rw [status]
  · exact ⟨rfl, quiet.append (List.forall_mem_nil _)⟩
  · exact ⟨rfl, quiet.append (List.forall_mem_nil _)⟩
  · exact ⟨rfl, quiet.append (List.forall_mem_nil _)⟩

/-- A kill of a channel that has not ended, and whose fault, if there is
one, is final. -/
theorem hold_kill_now (h : d.Attached e)
    (there : e.controller.channels[n.toNat]? = some ch)
    (alive : ch.Runs ∨ ∃ cause, ch.status = .faulting cause)
    (on : context.thread = .channel n) :
    (d.kill context).hold Emulator.platform e =
      (.ok context.cleared, killing e n ch) := by
  have look := hold_state_channel h.faces there
  have busy : ch.status ≠ .stopped := by
    rcases alive with (status | ⟨event, status⟩) | ⟨cause, status⟩ <;>
      rw [status] <;> exact nofun
  have told := hold_execute_kill h there busy
  rw [kill, on, Context.cleared_eq on, hold_bind_ok _ look]
  rcases alive with (status | ⟨event, status⟩) | ⟨cause, status⟩ <;>
    rw [status]
  · exact hold_bind_ok _ told _
  · exact hold_bind_ok _ told _
  · exact hold_bind_ok _ told _

/-- A fault that is not yet final is waited for first. -/
theorem hold_kill_later (h : d.Attached e) (patient : 1 ≤ d.settleTimeoutMs)
    (there : e.controller.channels[n.toNat]? = some ch) {cause : ChannelFault}
    (about : ch.status = .faultCompleting cause)
    (on : context.thread = .channel n) :
    e.later.controller.channels[n.toNat]? =
        some { ch with status := .faulting cause } ∧
      (d.kill context).hold Emulator.platform e =
        (.ok context.cleared,
          killing e.later n { ch with status := .faulting cause }) := by
  obtain ⟨k, left, after⟩ := channel_later h there
  rw [Channel.run_faultCompleting about] at after
  have look := hold_state_channel h.faces there
  have waits := hold_settle_later h patient there after
    (fun s => s = .faulting || s = .killing) (by rw [about]; rfl) rfl
  have told := hold_execute_kill h.later after nofun
  refine ⟨after, ?_⟩
  rw [kill, on, Context.cleared_eq on, hold_bind_ok _ look, about]
  exact (hold_bind_ok _ waits _).trans (hold_bind_ok _ told _)

-- =============================================================== finish

/-- Waiting for the end of a channel that has ended takes a millisecond
at most. -/
theorem hold_finish_ended (h : d.Attached e)
    (there : e.controller.channels[n.toNat]? = some ch) (ended : ch.Ended)
    (on : context.thread = .channel n) {ms : UInt32} (patient : 1 ≤ ms) :
    ∃ e', (d.finish context (.millis ms)).hold Emulator.platform e =
        (.ok context.cleared, e') ∧ e'.Has (.channel n) .stopped := by
  have look := hold_state_channel h.faces there
  have finishes {e' : Emulator} (polls : (d.awaitState (.channel n)
      (fun s => s = .stopped || s = .faulting) (.millis ms)).hold
        Emulator.platform e = (.ok .stopped, e')) :
      (d.finish context (.millis ms)).hold Emulator.platform e =
        (.ok context.cleared, e') := by
    rw [finish, on, Context.cleared_eq on, hold_bind_ok _ polls]
    rfl
  by_cases stopped : ch.status = .stopped
  · rw [stopped] at look
    refine ⟨e, finishes (hold_poll_now look rfl), ch, there, ?_⟩
    rw [stopped]
    rfl
  · have ending : ch.status = .completing ∨ ch.status = .killing :=
      ended.resolve_left stopped
    obtain ⟨k, left, after⟩ := channel_later h there
    rw [Channel.run_ending ending] at after
    have next := hold_state_channel h.later.faces after
    refine ⟨e.later, finishes (hold_poll_next look ?_ rfl next rfl
      (UInt32.le_iff_toNat_le.1 patient)), _, after, rfl⟩
    rcases ending with status | status <;> rw [status] <;> rfl

-- ============================================================ the manager

/-- A kill of the manager clears its fault, if it has one, and does
nothing else. -/
theorem hold_kill_manager (h : d.Attached e) (on : context.thread = .manager) :
    ∃ inst0 inst1, (d.kill context).hold Emulator.platform e =
      (.ok context.cleared,
        e.become (e.controller.besides .stopped inst0 inst1)) := by
  have look := hold_state_manager h.answers
  cases manager : e.controller.manager with
  | stopped =>
      have same :
          e.become (e.controller.besides .stopped e.controller.debugInst0
            e.controller.debugInst1) = e := by
        rw [Controller.besides, ← manager]
        rfl
      refine ⟨e.controller.debugInst0, e.controller.debugInst1, ?_⟩
      rw [same, kill, on, Context.cleared_eq on, hold_bind_ok _ look, manager]
      rfl
  | faulting causes =>
      have told := hold_execute h.reaches .kill .manager
      rw [Controller.given_kill_manager] at told
      refine ⟨debugInst0 .kill .manager, debugInst1 .kill, ?_⟩
      rw [kill, on, Context.cleared_eq on, hold_bind_ok _ look, manager]
      exact hold_bind_ok _ told _

/-- A manager that has stopped is left alone, and need not be waited
for. -/
theorem hold_kill_manager_stopped (h : d.Attached e)
    (stopped : e.controller.manager = .stopped)
    (on : context.thread = .manager) :
    (d.kill context).hold Emulator.platform e = (.ok context.cleared, e) ∧
      Silent ((d.kill context).accesses Emulator.platform e) ∧
      ∀ ms, (d.finish context (.millis ms)).hold Emulator.platform e =
        (.ok context.cleared, e) := by
  have look := hold_state_manager h.answers
  rw [stopped] at look
  have quiet : Silent ((d.state .manager).accesses Emulator.platform e) :=
    silent_state (Bus.Dialogue.transcript_hold ..)
  rw [kill, on, Context.cleared_eq on, hold_bind_ok _ look,
    accesses_bind_ok _ look]
  refine ⟨rfl, quiet.append (List.forall_mem_nil _), fun ms => ?_⟩
  have polls : (d.awaitState .manager
      (fun s => s = .stopped || s = .faulting) (.millis ms)).hold
        Emulator.platform e = (.ok .stopped, e) := hold_poll_now look rfl
  rw [finish, on, hold_bind_ok _ polls]
  rfl

end Driver

-- ============================================================ the outcome

/-- What a kill comes to on any thread: it succeeds, a second one finds
nothing to write and changes nothing, and the end can be waited for. -/
structure KillOutcome (d : Driver) (e : Emulator) (context : Context)
    (e' : Emulator) : Prop where
  killed : (d.kill context).attempt (d.on Emulator.platform) e =
    (some (.ok context.cleared), e')
  again : (d.kill context.cleared).attempt (d.on Emulator.platform) e' =
    (some (.ok context.cleared), e')
  silent : Silent
    ((d.kill context.cleared).attempted (d.on Emulator.platform) e')
  finishes : ∀ ms, 1 ≤ ms → ∃ e'',
    (d.finish context.cleared (.millis ms)).attempt (d.on Emulator.platform)
        e' = (some (.ok context.cleared), e'') ∧
    e''.Has context.thread .stopped

/-- What a kill makes of a channel, given the channel as it was. -/
structure ChannelKill (n : Nat) (e : Emulator) (ch : Channel) (e' : Emulator) :
    Prop where
  /-- It has ended, is quiet from then on, and has the addresses it
  had. -/
  ended : ∃ ch', e'.controller.channels[n]? = some ch' ∧ ch'.Ended ∧
    ch.SameAddresses ch' ∧ e'.Quiet n ch'
  /-- If it was not running, it is quiet from the call on: the kill is
  one of the courses that do not start it. -/
  quiet : ¬ ch.Runs → e.Spares n e' ∧ e.Quiet n ch
  /-- Everything but the channel is as it would be without the kill, but
  for the time it takes, and that is none for a running channel. -/
  elsewhere : ∃ ms ≤ 1, (ch.Runs → ms = 0) ∧
    (e.after ms).SameElsewhere n e'

/-- A driver kills every thread there is as it should. -/
def Driver.KillsAsPromised (d : Driver) (e : Emulator) : Prop :=
  (∀ context n, context.thread = .channel n → n < d.capability.numChannels →
    ∃ ch e', e.controller.channels[n.toNat]? = some ch ∧
      KillOutcome d e context e' ∧ ChannelKill n.toNat e ch e') ∧
  ∀ context, context.thread = .manager →
    ∃ e' inst0 inst1, KillOutcome d e context e' ∧
      e' = e.become (e.controller.besides .stopped inst0 inst1)

namespace Driver

variable {d : Driver} {e e' : Emulator} {n : UInt8} {ch : Channel}
  {context : Context}

/-- A conversation that would write nothing writes nothing as far as it
goes. -/
theorem silent_attempted {α : Type} {dialogue : Drive α}
    (quiet : Silent (dialogue.accesses Emulator.platform e)) :
    Silent (dialogue.attempted (d.on Emulator.platform) e) := by
  rw [← accesses_on d] at quiet
  exact fun access made => quiet access (attempted_isPrefix.subset made)

/-- What a kill comes to is known from the conversations if they are
held. -/
theorem killOutcome_of_hold (answers : e.Answers d) (answers' : e'.Answers d)
    (killed : (d.kill context).hold Emulator.platform e =
      (.ok context.cleared, e'))
    (again : (d.kill context.cleared).hold Emulator.platform e' =
        (.ok context.cleared, e') ∧
      Silent ((d.kill context.cleared).accesses Emulator.platform e'))
    (finishes : ∀ ms, 1 ≤ ms → ∃ e'',
      (d.finish context.cleared (.millis ms)).hold Emulator.platform e' =
        (.ok context.cleared, e'') ∧ e''.Has context.thread .stopped) :
    KillOutcome d e context e' where
  killed := answers.attempt (asks_kill _) killed
  again := answers'.attempt (asks_kill _) again.1
  silent := silent_attempted again.2
  finishes := by
    intro ms patient
    obtain ⟨e'', finished, stopped⟩ := finishes ms patient
    exact ⟨e'', answers'.attempt (asks_finish ..) finished, stopped⟩

/-- Once a kill has ended its channel, the rest follows. -/
theorem killOutcome_of_ended (h : d.Attached e) (h' : d.Attached e')
    (there : e'.controller.channels[n.toNat]? = some ch) (ended : ch.Ended)
    (on : context.thread = .channel n)
    (killed : (d.kill context).hold Emulator.platform e =
      (.ok context.cleared, e')) :
    KillOutcome d e context e' := by
  have cleared : context.cleared.thread = .channel n := on
  refine killOutcome_of_hold h.answers h'.answers killed
    (hold_kill_ended h' there ended cleared) ?_
  rw [on]
  exact fun ms patient => hold_finish_ended h' there ended cleared patient

/-- What killing makes of a channel that has not stopped. -/
theorem channelKill_killing (h : d.Attached e)
    (there : e.controller.channels[n.toNat]? = some ch)
    (busy : ch.status ≠ .stopped) :
    ChannelKill n.toNat e ch (killing e n ch) where
  ended := ⟨ch.killed, channel_killing there, Or.inr (Or.inr rfl),
    ⟨rfl, rfl⟩, Emulator.quiet_of_not_runs (channel_killing there)
      ch.killed_not_runs⟩
  quiet := fun idle => ⟨spares_killing h.awake h.few there busy,
    Emulator.quiet_of_not_runs there idle⟩
  elsewhere := ⟨0, by decide, fun _ => rfl, e.controller.manager, _, _, _, rfl⟩

/-- A kill of a channel comes to what is promised. -/
theorem kill_channel (h : d.Attached e) (patient : 1 ≤ d.settleTimeoutMs)
    (there : e.controller.channels[n.toNat]? = some ch)
    (on : context.thread = .channel n) :
    ∃ e', KillOutcome d e context e' ∧ ChannelKill n.toNat e ch e' := by
  have now (busy : ch.status ≠ .stopped)
      (alive : ch.Runs ∨ ∃ cause, ch.status = .faulting cause) :
      ∃ e', KillOutcome d e context e' ∧ ChannelKill n.toNat e ch e' :=
    ⟨killing e n ch, killOutcome_of_ended h (h.killing n ch)
      (channel_killing there) (Or.inr (Or.inr rfl)) on
      (hold_kill_now h there alive on), channelKill_killing h there busy⟩
  have nothing (ended : ch.Ended) :
      ∃ e', KillOutcome d e context e' ∧ ChannelKill n.toNat e ch e' := by
    refine ⟨e, killOutcome_of_ended h h there ended on
      (hold_kill_ended h there ended on).1, ?_⟩
    have quiet := Emulator.quiet_of_not_runs there ended.not_runs
    exact ⟨⟨ch, there, ended, ⟨rfl, rfl⟩, quiet⟩, fun _ => ⟨.refl, quiet⟩,
      0, by decide, fun _ => rfl, .refl there⟩
  cases status : ch.status with
  | stopped => exact nothing (Or.inl status)
  | completing => exact nothing (Or.inr (Or.inl status))
  | killing => exact nothing (Or.inr (Or.inr status))
  | executing =>
      exact now (by rw [status]; exact nofun) (Or.inl (Or.inl status))
  | waiting event =>
      exact now (by rw [status]; exact nofun) (Or.inl (Or.inr ⟨event, status⟩))
  | faulting cause =>
      exact now (by rw [status]; exact nofun) (Or.inr ⟨cause, status⟩)
  | faultCompleting cause =>
      obtain ⟨after, killed⟩ := hold_kill_later h patient there status on
      have then_killed := channelKill_killing h.later after nofun
      have wait : e.Spares n.toNat e.later := by
        refine Emulator.Spares.refl.step (.run (e.slice 1)) fun starts => ?_
        have executing := starts.2
        rw [after] at executing
        cases executing
      have idle : ¬ ch.Runs := by
        rintro (runs | ⟨event, runs⟩) <;> cases status.symm.trans runs
      have still : ¬ Channel.Runs { ch with status := .faulting cause } :=
        Channel.AtRest.not_runs (Or.inr ⟨cause, rfl⟩)
      refine ⟨_, killOutcome_of_ended h (h.later.killing n _)
        (channel_killing after) (Or.inr (Or.inr rfl)) on killed,
        then_killed.ended, fun _ => ⟨?_, ?_⟩, ?_⟩
      · exact wait.trans (then_killed.quiet still).1
      · exact Emulator.quiet_of_not_runs there idle
      · exact ⟨1, by decide, fun runs => absurd runs idle,
          e.later.controller.manager, _, _, _, rfl⟩

/-- And so does a kill of the manager. -/
theorem kill_manager (h : d.Attached e) (on : context.thread = .manager) :
    ∃ e' inst0 inst1, KillOutcome d e context e' ∧
      e' = e.become (e.controller.besides .stopped inst0 inst1) := by
  obtain ⟨inst0, inst1, killed⟩ := hold_kill_manager h on
  have attached := h.become
    (c := e.controller.besides .stopped inst0 inst1) rfl rfl rfl
  have cleared : context.cleared.thread = .manager := on
  obtain ⟨again, silent, finishes⟩ :=
    hold_kill_manager_stopped attached rfl cleared
  refine ⟨_, inst0, inst1, killOutcome_of_hold h.answers attached.answers
    killed ⟨again, silent⟩ fun ms _ => ?_, rfl⟩
  rw [on]
  exact ⟨_, finishes ms, rfl⟩

end Driver

/-- Whatever happened before, whatever the channels do, a kill comes to
what is promised. -/
theorem kill_as_promised {config : DriverConfig} {e : Emulator}
    (reach : Emulator.Reachable config.variant.capability config.base e)
    (ends : config.Addressable) (awake : e.controller.halted = false)
    (ticks : 1 ≤ e.stepsPerMs) (patient : 1 ≤ config.settleTimeoutMs) :
    config.driver.KillsAsPromised e := by
  have attached := reach.kept.attached ends awake ticks
  refine ⟨fun context n on exist => ?_,
    fun context on => Driver.kill_manager attached on⟩
  have small : n.toNat < e.controller.channels.length := by
    rw [reach.kept.count]
    exact UInt8.lt_iff_toNat_lt.1 exist
  have there := List.getElem?_eq_getElem small
  obtain ⟨e', outcome, kill⟩ := Driver.kill_channel attached patient there on
  exact ⟨_, e', there, outcome, kill⟩

/-- A kill of a thread that waits for an event, with a byte in its
buffer. -/
theorem kill_as_promised_waiting :
    (∃ ch, Emulator.waitingThread.controller.channels[0]? = some ch ∧
        ch.status = .waiting 0) ∧
      (DriverConfig.mk .pl330 0x20000000 .secure 100
        100).driver.KillsAsPromised Emulator.waitingThread := by
  have reach : Emulator.Reachable
      (DriverConfig.mk .pl330 0x20000000 .secure 100 100).variant.capability
      (DriverConfig.mk .pl330 0x20000000 .secure 100 100).base
      Emulator.waitingThread := ((Emulator.Reachable.new _).hold _).run 5
  refine ⟨⟨_, List.getElem?_eq_getElem (by decide +kernel), ?_⟩,
    kill_as_promised reach (by decide) ?_ ?_ (by decide)⟩
  · decide +kernel
  · decide +kernel
  · decide +kernel

/-- That both windows exist is not enough: a kill through one that ends
with the address space panics. -/
theorem kill_stopped_at_the_end :
    ¬ ∀ (config : DriverConfig) (e : Emulator),
      Emulator.Reachable config.variant.capability config.base e →
      config.variant.capability.WindowsExist config.base →
      e.controller.halted = false → 1 ≤ e.stepsPerMs →
      1 ≤ config.settleTimeoutMs → config.driver.KillsAsPromised e := by
  intro promised
  obtain ⟨channels, -⟩ := promised
    ⟨.pl330, 0xffffffffffffe000, .nonSecure, 100, 100⟩
    (.new .pl330 0xffffffffffffe000 (.zeroed 0 0x100)) (.new _) (by decide)
    rfl (by decide) (by decide)
  obtain ⟨ch, e', -, outcome, -⟩ :=
    channels { thread := .channel 0 } 0 rfl (by decide)
  cases outcome.killed.symm.trans
    (DriverConfig.attempt_kill rfl rfl (by decide) _)

end DmaController
