/-
How long a program takes to the tick, and what a driver is told that
waits for it. A program is over when it has ended and its channel has
stopped a tick later, and both depend on its plan alone
(`Plan.duration`).

A driver looks before it waits and once more after the last millisecond,
so a wait sees the states of the run up to and including the one at its
very end. It is told of the end exactly if the program was over by then,
and otherwise that the time is up, with the channel as it was seen last.
Looks take no time; so waits that were in vain add up, and the same holds
of the next one.

Nothing is asked of the emulator's pace. If its time stands still, no
wait is ever long enough. And nothing is asked of the place of its
windows: a start that was made at all was made by a driver that is
answered.
-/
import Mathlib.Logic.Function.Iterate
import DmaController.Proofs.Driver.Isolation
import DmaController.Proofs.Execution.Verdict

namespace DmaController

open Bus (Dialogue Emulator)
open Bus.Dialogue (hold_bind hold_bind_ok hold_of_attempt hold_poll_reject)

-- =========================================================== the duration

/-- The ticks of a nest around a body of `body` ticks. -/
def LoopNest.duration (nest : LoopNest) (body : Nat) : Nat :=
  match nest.outer with
  | none => 1 + nest.inner.toNat * (body + 1)
  | some outer => 1 + outer.toNat * (2 + nest.inner.toNat * (body + 1))

/-- The ticks before the first phase of a program: the addresses it loads,
and the flush of its peripheral. -/
def Request.ticksBefore (req : Request) : Mode → Nat
  | .zeroFill => 1
  | .copy => if req.direction = .memoryToMemory then 2 else 3

/-- The ticks of a round between two ends of a loop. -/
def Request.bodyTicks (req : Request) : Mode → Nat
  | .zeroFill => 1
  | .copy => if req.direction = .memoryToMemory then 4 else 5

/-- The ticks from the start of a program until its channel has
stopped: the last two are its end and that of the channel. -/
def Plan.duration (plan : Plan) (req : Request) : Nat :=
  let body := req.bodyTicks plan.mode
  req.ticksBefore plan.mode +
    (plan.phases.map fun phase =>
      1 + (phase.loops.map (·.duration body)).sum).sum +
    (if plan.mode = .zeroFill then 1 else 0) + 2

theorem LoopNest.duration_eq_ticks (nest : LoopNest) (body : Nat) :
    nest.duration body = nest.ticks body := by
  unfold duration ticks
  cases nest.outer with
  | none => rfl
  | some outer =>
      show 1 + outer.toNat * (2 + nest.inner.toNat * (body + 1)) =
        1 + outer.toNat * (1 + nest.inner.toNat * (body + 1) + 1)
      rw [Nat.add_right_comm 1]

theorem Request.length_loopBody (req : Request) (mode : Mode)
    (kind : PhaseKind) :
    (req.loopBody mode kind).length = req.bodyTicks mode := by
  unfold loopBody bodyTicks
  cases mode with
  | zeroFill => rfl
  | copy => cases req.direction <;> rfl

theorem Request.length_prologue (req : Request) (mode : Mode) :
    (req.prologue mode).length = req.ticksBefore mode := by
  unfold prologue ticksBefore
  cases mode with
  | zeroFill => rfl
  | copy => cases req.direction <;> rfl

/-- The channel has stopped a tick after the program has ended. -/
theorem Plan.duration_eq (plan : Plan) (req : Request) :
    plan.duration req = plan.ticks req + 1 := by
  have phases (phase : Phase) :
      1 + (phase.loops.map (·.duration (req.bodyTicks plan.mode))).sum =
        phase.ticks req plan.mode := by
    simp only [Phase.ticks, Request.length_loopBody,
      LoopNest.duration_eq_ticks]
  have epilogue : plan.mode.epilogue.length =
      (if plan.mode = .zeroFill then 1 else 0) + 1 := by
    cases plan.mode <;> rfl
  simp only [duration, ticks, phases, Request.length_prologue, epilogue]
  omega

namespace Driver

variable {d : Driver} {e : Emulator} {n : UInt8} {ch : Channel}
  {context : Context}

-- ================================================================= halted

/-- A controller that is halted stays busy as long as anyone waits. -/
theorem hold_awaitDebugIdle_halted (answers : e.Answers d)
    (halted : e.controller.halted = true) :
    d.awaitDebugIdle.hold Emulator.platform e =
      (.error (.debugTimeout d.debugTimeoutMs),
        Emulator.later^[d.debugTimeoutMs.toNat] e) := by
  have still (k : Nat) : (Emulator.later^[k] e).Answers d ∧
      (Emulator.later^[k] e).controller.halted = true := by
    induction k with
    | zero => exact ⟨answers, halted⟩
    | succ k ih =>
        rw [Function.iterate_succ_apply']
        exact ih
  have busy (k : Nat) :
      (d.read Register.dbgstatus).hold Emulator.platform
          (Emulator.later^[k] e) = (.ok 1, Emulator.later^[k] e) := by
    have read := hold_read (still k).1
      (show Register.dbgstatus < Register.windowSize by decide)
    rwa [Controller.read_dbgstatus, (still k).2, if_pos rfl] at read
  have passes (k : Nat) :
      (Emulator.platform.answer (.delay 1) (Emulator.later^[k] e)).2 =
        Emulator.later^[k + 1] e := by
    rw [Function.iterate_succ_apply']
    rfl
  rw [← Function.iterate_zero_apply Emulator.later e, awaitDebugIdle,
    hold_bind, hold_poll_reject busy passes fun _ _ => rfl]
  rfl

/-- So it executes nothing. -/
theorem hold_execute_halted (answers : e.Answers d)
    (halted : e.controller.halted = true) (i : Instruction)
    (thread : Thread) :
    ∃ e', (d.execute i thread).hold Emulator.platform e =
      (.error (.debugTimeout d.debugTimeoutMs), e') := by
  refine ⟨Emulator.later^[d.debugTimeoutMs.toNat] e, ?_⟩
  rw [execute, Bus.Dialogue.hold_say_bind, hold_bind,
    hold_awaitDebugIdle_halted answers halted]

/-- And nothing is started on it. -/
theorem hold_launching_halted (answers : e.Answers d)
    (halted : e.controller.halted = true) (program : Microprogram) :
    ∃ e', (d.launching n program .stopped).hold Emulator.platform e =
      (.error (.debugTimeout d.debugTimeoutMs), e') := by
  have look := hold_state_manager answers
  rw [launching, clearManager, bind_assoc, hold_bind_ok _ look]
  cases e.controller.manager with
  | stopped =>
      obtain ⟨e', fails⟩ := hold_execute_halted answers halted
        (.go n program.busAddress program.nonSecure) .manager
      refine ⟨e', ?_⟩
      change (d.go n program >>= _).hold Emulator.platform e = _
      rw [go, bind_assoc, hold_bind, fails]
  | faulting causes =>
      obtain ⟨e', fails⟩ := hold_execute_halted answers halted .kill .manager
      refine ⟨e', ?_⟩
      rw [ManagerState.threadState, if_pos rfl, bind_assoc,
        hold_bind_ok _ (hold_faultInfo_manager answers)]
      simp only [bind_assoc]
      rw [Bus.Dialogue.hold_say_bind, hold_bind, fails]

/-- What a start that succeeded on a stopped channel has done. -/
theorem started_of_start (h : d.Faces e)
    (there : e.controller.channels[n.toNat]? = some ch)
    (stopped : ch.status = .stopped) (on : context.thread = .channel n)
    {program : Microprogram} {started : Context} {e₁ : Emulator}
    (starts : (d.start context program).hold Emulator.platform e =
      (.ok started, e₁)) :
    started = { thread := .channel n, programBase := some program.busAddress } ∧
      ∃ inst0 inst1, e₁ = e.become
        ((e.controller.besides .stopped inst0 inst1).setChannel n.toNat
          (.started program.busAddress program.nonSecure)) := by
  rw [hold_start h there stopped on] at starts
  cases halted : e.controller.halted with
  | true =>
      obtain ⟨e', fails⟩ :=
        hold_launching_halted h.answers halted (n := n) program
      cases fails.symm.trans starts
  | false =>
      obtain ⟨inst0, inst1, launched⟩ :=
        hold_launching ⟨h, halted⟩ there stopped program
      rw [launched] at starts
      split at starts
      · cases starts
      · cases starts
        exact ⟨rfl, inst0, inst1, rfl⟩

-- ================================================================= the wait

/-- A driver waits for the end of a program, `ms` milliseconds at most.
If these are enough, it is told so, and else that the time is up and the
channel still busy. -/
structure Verdict (d : Driver) (context : Context) (ms : UInt32)
    (enough : Prop) (e e' : Emulator) : Prop where
  ended : enough →
    (d.finish context (.millis ms)).attempt (d.on Emulator.platform) e =
      (some (.ok { context with programBase := none }), e')
  early : ¬ enough → ∃ state, (state = .executing ∨ state = .completing) ∧
    (d.finish context (.millis ms)).attempt (d.on Emulator.platform) e =
      (some (.error (.timeout context.thread state ms)), e')

/-- Some ticks into a run that is over after a number of them, a wait is
long enough if the run is over at its end; and if it was not, the run is
where it would be without the wait. -/
theorem verdict (h : d.Faces e)
    (there : e.controller.channels[n.toNat]? = some ch)
    (rests : e.controller.RestsBut n.toNat) {ticks : Nat}
    (course : ∀ k, (ch.run e.controller.capability k
      ⟨e.controller.events, e.memory⟩).1.status = Job.statusAfter ticks k)
    (on : context.thread = .channel n) (passed : Nat) (ms : UInt32) :
    ∃ e', d.Verdict context ms
        (ticks + 1 ≤ passed + ms.toNat * e.stepsPerMs.toNat) (e.run passed) e' ∧
      (passed + ms.toNat * e.stepsPerMs.toNat < ticks + 1 →
        e' = e.run (passed + ms.toNat * e.stepsPerMs.toNat)) := by
  rw [← Emulator.slice_one]
  have answers := (h.run passed).answers
  have busy (k : Nat) (early : k ≤ ticks) :
      ((Job.statusAfter ticks k).threadState = .executing ∨
        (Job.statusAfter ticks k).threadState = .completing) :=
    (Job.statusAfter_of_le early).imp (congrArg _) (congrArg _)
  have rejected (k : Nat) (early : k ≤ ticks) :
      (fun s => s = .stopped || s = .faulting : ThreadState → Bool)
        (Job.statusAfter ticks k).threadState = false := by
    rcases busy k early with state | state <;> rw [state] <;> rfl
  by_cases late : ticks < passed + ms.toNat * e.slice 1
  · obtain ⟨k, behind, waits⟩ := hold_poll_over there rests course
      (fun s => s = .stopped || s = .faulting) passed h rejected
      (fun k behind => by rw [Job.statusAfter_of_lt behind]; rfl) late
      (fun last => Dialogue.fail (.timeout (.channel n) last ms))
    rw [Job.statusAfter_of_lt behind] at waits
    refine ⟨e.run k, ⟨fun _ => ?_, fun early => absurd late early⟩,
      fun early => absurd early (Nat.not_lt.2 late)⟩
    apply answers.attempt (asks_finish ..)
    rw [finish, on]
    exact hold_bind_ok _ waits _
  · have early := Nat.not_lt.1 late
    have waits := hold_poll_early there rests course
      (fun s => s = .stopped || s = .faulting) passed h rejected early
      (fun last => Dialogue.fail (.timeout (.channel n) last ms))
    refine ⟨_, ⟨fun enough => absurd enough late, fun _ =>
      ⟨_, busy _ early, ?_⟩⟩, fun _ => rfl⟩
    apply answers.attempt (asks_finish ..)
    rw [finish, on, awaitState, hold_bind, waits]
    rfl

/-- So it is with a task that was just started and does not fault. -/
theorem verdict_task {variant : Variant} {task : Task variant.capability}
    (h : d.Faces e) (same : e.controller.capability = variant.capability)
    (begun : e.controller.channels[task.channel.toNat]? = some task.begun)
    (rests : e.controller.RestsBut task.channel.toNat)
    (ready : task.Ready e.memory)
    (faultless : ∀ k ch,
      (e.run k).controller.channels[task.channel.toNat]? = some ch →
        ch.status.cause? = none)
    (on : context.thread = .channel task.channel) (passed : Nat)
    (ms : UInt32) :
    ∃ e', d.Verdict context ms
        (task.program.plan.duration task.request ≤
          passed + ms.toNat * e.stepsPerMs.toNat) (e.run passed) e' ∧
      (passed + ms.toNat * e.stepsPerMs.toNat <
          task.program.plan.duration task.request →
        e' = e.run (passed + ms.toNat * e.stepsPerMs.toNat)) := by
  have outcome := ready.outcome e.controller.events
  obtain ⟨m', moved⟩ := outcome.moved_of_faultless fun k => by
    have ran := Emulator.channel_run begun rests k
    rw [same] at ran
    exact faultless k _ ran
  rw [Plan.duration_eq]
  refine verdict h begun rests (fun k => ?_) on passed ms
  rw [same]
  exact (outcome.run_moved moved k).1

end Driver

/-- A driver waits for the end of a program that is over after `duration`
ticks, `steps` of which pass in a millisecond. It is told of it exactly
if it waits that long, and what it has waited in vain counts for the next
time. -/
def Driver.WaitsExactly (d : Driver) (context : Context)
    (duration steps : Nat) (e : Emulator) : Prop :=
  ∀ ms : UInt32,
    ∃ e₁, d.Verdict context ms (duration ≤ ms.toNat * steps) e e₁ ∧
      (ms.toNat * steps < duration → ∀ more : UInt32,
        ∃ e₂, d.Verdict context more
          (duration ≤ (ms.toNat + more.toNat) * steps) e₁ e₂)

/-- Once a program that does not fault was started, a driver can wait for
its end to the tick. -/
theorem waits_exactly {config : DriverConfig} {e e₁ : Emulator}
    {task : Task config.variant.capability} {context started : Context}
    (kept : e.Kept config.variant.capability config.base)
    (stopped : e.controller.channels[task.channel.toNat]?.map Channel.status =
      some .stopped)
    (idle : e.controller.RestsBut task.channel.toNat)
    (ready : task.Ready e.memory)
    (on : context.thread = .channel task.channel)
    (starts : (config.driver.start context task.program).attempt
      (config.driver.on Emulator.platform) e = (some (.ok started), e₁))
    (faultless : ∀ k ch,
      (e₁.run k).controller.channels[task.channel.toNat]? = some ch →
        ch.status.cause? = none) :
    config.driver.WaitsExactly started
      (task.program.plan.duration task.request) e.stepsPerMs.toNat e₁ := by
  obtain ⟨ch, there, status⟩ := Option.map_eq_some_iff.1 stopped
  have ends : config.Addressable := Decidable.of_not_not fun beyond => by
    have panics := DriverConfig.attempt_start kept.base kept.capability beyond on
      task.program
    cases panics.symm.trans starts
  have starts := hold_of_attempt starts
  rw [Driver.hold_on] at starts
  have faces := kept.faces ends
  obtain ⟨rfl, inst0, inst1, rfl⟩ :=
    Driver.started_of_start faces there status on starts
  have begun := Controller.channel_setChannel
    (c := e.controller.besides .stopped inst0 inst1) there task.begun
  have rests := Controller.RestsBut.setChannel
    (c := e.controller.besides .stopped inst0 inst1) idle task.begun
  have answers := faces.become
    (c := (e.controller.besides .stopped inst0 inst1).setChannel
      task.channel.toNat task.begun) rfl List.length_set
  have still : Context.thread ⟨.channel task.channel,
      some task.program.busAddress⟩ = .channel task.channel := rfl
  have waits := Driver.verdict_task answers kept.capability begun rests ready
    faultless still
  intro ms
  obtain ⟨e₂, first, left⟩ := waits 0 ms
  rw [Emulator.run_zero] at first
  rw [Nat.zero_add] at first left
  refine ⟨e₂, first, fun early more => ?_⟩
  obtain ⟨e₃, second, -⟩ := waits (ms.toNat * e.stepsPerMs.toNat) more
  rw [left early, Nat.add_mul]
  exact ⟨e₃, second⟩

-- ========================================================== a short copy

/-- An emulator with the program of the short copy in its memory, at four
ticks in a millisecond. -/
def slowly : Emulator :=
  { Emulator.new .pl330 0x20000000 shortCopyMemory with stepsPerMs := 4 }

def slowConfig : DriverConfig :=
  ⟨.pl330, 0x20000000, .secure, 100, 100⟩

theorem ready_copying : Emulator.copying.Ready shortCopyMemory where
  code := holdsBytes_shortCopyMemory
  below := by decide
  spares := by
    intro a writes code
    have inside := Emulator.writes_copying writes
    have high : a < 27 := code.2
    omega

theorem moved_copying :
    ∃ m', Block.moveAll Emulator.copying.job.swap Emulator.copying.job.blocks
      shortCopyMemory = (m', none) :=
  ⟨_, Prod.ext rfl (by decide +kernel)⟩

/-- The short copy takes eleven ticks, so it is not over after two
milliseconds, and one more is enough. -/
theorem waits_exactly_slowly :
    ∃ started e₁,
      (slowConfig.driver.start { thread := .channel 0 }
        shortCopyProgram).attempt (slowConfig.driver.on Emulator.platform)
          slowly = (some (.ok started), e₁) ∧
      slowConfig.driver.WaitsExactly started 11 4 e₁ := by
  have kept : slowly.Kept slowConfig.variant.capability slowConfig.base :=
    ⟨rfl, rfl, rfl⟩
  have ends : slowConfig.Addressable := by decide
  have there : slowly.controller.channels[Emulator.copying.channel.toNat]? =
      some ({} : Channel) := rfl
  have stopped := congrArg (Option.map Channel.status) there
  have idle : slowly.controller.RestsBut Emulator.copying.channel.toNat :=
    Controller.restsBut_new _ _
  have accepts : ¬ slowConfig.driver.Refuses shortCopyProgram := by decide
  obtain ⟨inst0, inst1, holds⟩ := Driver.hold_start_stopped
    ⟨kept.faces ends, rfl⟩ there rfl accepts
    (show Context.thread { thread := .channel 0 } = .channel 0 from rfl)
  have starts := (kept.faces ends).answers.attempt (Driver.asks_start ..) holds
  have begun := Controller.channel_setChannel
    (c := slowly.controller.besides .stopped inst0 inst1) there
    Emulator.copying.begun
  have rests := Controller.RestsBut.setChannel
    (c := slowly.controller.besides .stopped inst0 inst1) idle
    Emulator.copying.begun
  have outcome := ready_copying.outcome slowly.controller.events
  obtain ⟨m', moved⟩ := moved_copying
  have faultless : ∀ k ch, ((slowly.become
      ((slowly.controller.besides .stopped inst0 inst1).setChannel
        Emulator.copying.channel.toNat Emulator.copying.begun)).run
          k).controller.channels[Emulator.copying.channel.toNat]? = some ch →
      ch.status.cause? = none := by
    intro k ch at_k
    have ran := Emulator.channel_run (e := slowly.become _) begun rests k
    cases ran.symm.trans at_k
    exact outcome.faultless_of_moved moved k
  exact ⟨_, _, starts, waits_exactly kept stopped idle ready_copying rfl
    starts faultless⟩

end DmaController
