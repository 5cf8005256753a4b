/-
How far the conversations of a driver go. A driver asks for registers of
its window and for time, and for nothing else (`Driver.Addresses`); each
of its functions has one lemma here that says so.

So there are two kinds of drivers. One whose emulator answers it is never
stopped: what its conversations come to if they are held is what they
come to (`Answers.attempt`). One whose window cannot be addressed is
stopped at the first register it asks for, and has then changed nothing:
every call begins with a look at a thread (`attempt_state`).
-/
import DmaController.Driver.Context
import DmaController.Driver.Probe
import DmaController.Proofs.Driver.Commands

namespace DmaController

open Bus (Dialogue Emulator)
open Bus.Dialogue (Asks asks_poll asks_say attempt_ask_of_stops
  attempt_eq_hold attempt_poll_of_stops)

namespace Driver

variable {d : Driver} {register : UInt64}

/-- A platform that a driver meets answers as it does. -/
theorem hold_on {ε α σ : Type} (d : Driver) (p : Bus.Platform σ)
    (dialogue : Dialogue ε α) (s : σ) :
    dialogue.hold (d.on p) s = dialogue.hold p s := by
  induction dialogue generalizing s with
  | done outcome => rfl
  | ask query next ih => exact ih _ _
  | remark line next ih => exact ih s

theorem accesses_on {ε α σ : Type} (d : Driver) (p : Bus.Platform σ)
    (dialogue : Dialogue ε α) (s : σ) :
    dialogue.accesses (d.on p) s = dialogue.accesses p s := by
  induction dialogue generalizing s with
  | done outcome => rfl
  | ask query next ih => exact congrArg (_ :: ·) (ih _ _)
  | remark line next ih => exact ih s

-- =========================================================== what is asked

theorem addresses_register {query : Bus.Query}
    (inside : register < Register.windowSize)
    (asked : query.address? = some (d.registers + register)) :
    d.Addresses query := by
  intro address same
  cases asked.symm.trans same
  exact ⟨register, inside, rfl⟩

theorem addresses_delay (ms : UInt32) : d.Addresses (.delay ms) := by
  intro address asked
  cases asked

theorem asks_read (inside : register < Register.windowSize) :
    (d.read register).Asks d.Addresses :=
  ⟨addresses_register inside rfl, fun _ => True.intro⟩

theorem asks_write (inside : register < Register.windowSize) (value : UInt32) :
    (d.write register value).Asks d.Addresses :=
  ⟨addresses_register inside rfl, fun _ => True.intro⟩

theorem asks_awaitDebugIdle : d.awaitDebugIdle.Asks d.Addresses := by
  refine Asks.bind ?_ fun _ => ?_
  · refine asks_poll (asks_read (by decide)) (addresses_delay 1) (fun _ => ?_) _
    exact True.intro
  · exact True.intro

theorem asks_execute (i : Instruction) (thread : Thread) :
    (d.execute i thread).Asks d.Addresses :=
  asks_awaitDebugIdle.bind fun _ => (asks_write (by decide) _).bind fun _ =>
    (asks_write (by decide) _).bind fun _ => asks_write (by decide) _

theorem asks_state (thread : Thread) : (d.state thread).Asks d.Addresses := by
  cases thread with
  | manager => exact asks_read (by decide)
  | channel n => exact asks_read (csr_inside n)

theorem asks_programCounter (thread : Thread) :
    (d.programCounter thread).Asks d.Addresses := by
  cases thread with
  | manager => exact asks_read (by decide)
  | channel n => exact asks_read (cpc_inside n)

theorem asks_faultInfo (thread : Thread) :
    (d.faultInfo thread).Asks d.Addresses := by
  cases thread with
  | manager =>
      have inside : Register.ftrd < Register.windowSize := by decide
      refine Asks.bind (asks_read inside) fun _ => ?_
      refine Asks.bind (asks_programCounter _) fun _ => ?_
      exact True.intro
  | channel n =>
      refine Asks.bind (asks_read (ftr_inside n)) fun _ => ?_
      refine Asks.bind (asks_programCounter _) fun _ => ?_
      exact True.intro

theorem asks_awaitState (thread : Thread) (accept : ThreadState → Bool)
    (patience : Patience) :
    (d.awaitState thread accept patience).Asks d.Addresses := by
  cases patience <;>
    · refine asks_poll (asks_state thread) (addresses_delay 1) (fun _ => ?_) _
      exact True.intro

theorem asks_settleFaultCompleting (thread : Thread) (state : ThreadState) :
    (d.settleFaultCompleting thread state).Asks d.Addresses := by
  unfold settleFaultCompleting
  split
  · exact asks_awaitState ..
  · exact True.intro

theorem asks_killFaulting (thread : Thread) (state : ThreadState) :
    (d.killFaulting thread state).Asks d.Addresses := by
  unfold killFaulting
  split
  · refine Asks.bind (asks_execute ..) fun _ => ?_
    exact True.intro
  · exact True.intro

theorem asks_settleStopping (thread : Thread) (state : ThreadState) :
    (d.settleStopping thread state).Asks d.Addresses := by
  unfold settleStopping
  split
  · exact asks_awaitState ..
  · exact True.intro

theorem asks_clearManager : d.clearManager.Asks d.Addresses := by
  refine Asks.bind (asks_state _) fun state => ?_
  split
  · refine Asks.bind (asks_faultInfo _) fun _ => asks_say ?_
    refine Asks.bind (asks_execute ..) fun _ => ?_
    refine Asks.bind (asks_awaitState ..) fun _ => ?_
    exact True.intro
  · exact True.intro

theorem asks_go (n : UInt8) (program : Microprogram) :
    (d.go n program).Asks d.Addresses := by
  refine Asks.bind (asks_execute ..) fun _ => ?_
  refine Asks.bind (asks_state _) fun state => ?_
  split
  · refine Asks.bind (asks_faultInfo _) fun _ => ?_
    exact True.intro
  · exact True.intro

theorem asks_startOn (n : UInt8) (program : Microprogram) :
    (d.startOn n program).Asks d.Addresses := by
  refine Asks.bind (asks_state _) fun _ => ?_
  refine Asks.bind (asks_settleFaultCompleting ..) fun _ => ?_
  refine Asks.bind (asks_killFaulting ..) fun _ => ?_
  refine Asks.bind (asks_settleStopping ..) fun state => ?_
  cases state with
  | stopped =>
      refine Asks.bind asks_clearManager fun _ => ?_
      refine Asks.bind (asks_go n program) fun _ => ?_
      exact True.intro
  | _ => exact True.intro

theorem asks_start (context : Context) (program : Microprogram) :
    (d.start context program).Asks d.Addresses := by
  unfold start
  split
  · exact True.intro
  · exact asks_startOn ..

theorem asks_kill (context : Context) :
    (d.kill context).Asks d.Addresses := by
  refine Asks.bind (asks_state _) fun _ => ?_
  refine Asks.bind (asks_settleFaultCompleting ..) fun state => ?_
  split
  · refine Asks.bind (asks_execute ..) fun _ => ?_
    exact True.intro
  · exact True.intro

theorem asks_finish (context : Context) (patience : Patience) :
    (d.finish context patience).Asks d.Addresses := by
  refine Asks.bind (asks_awaitState ..) fun state => ?_
  split
  · exact True.intro
  · refine Asks.bind (asks_faultInfo _) fun _ => ?_
    exact True.intro

/-- Four registers with a byte each. -/
theorem asks_readId {first : UInt64}
    (inside : first < Register.windowSize ∧ first + 4 < Register.windowSize ∧
      first + 8 < Register.windowSize ∧ first + 12 < Register.windowSize) :
    (d.readId first).Asks d.Addresses := by
  obtain ⟨at0, at1, at2, at3⟩ := inside
  refine ⟨addresses_register at0 rfl, fun _ => ⟨addresses_register at1 ?_,
    fun _ => ⟨addresses_register at2 ?_,
      fun _ => ⟨addresses_register at3 ?_, fun _ => True.intro⟩⟩⟩⟩ <;>
    exact congrArg some (UInt64.add_assoc ..)

theorem asks_probe : d.probe.Asks d.Addresses := by
  refine Asks.bind (asks_readId (by decide)) fun id => ?_
  split
  · exact True.intro
  refine Asks.bind (asks_readId (by decide)) fun component => ?_
  split
  · exact True.intro
  refine Asks.bind (asks_read (by decide)) fun cr0 => ?_
  refine Asks.bind (asks_read (by decide)) fun crd => ?_
  dsimp only
  split <;> exact True.intro

end Driver

-- ============================================================== answered

/-- What the conversations of a driver that is answered come to if they
are held is what they come to: nothing stops them. -/
theorem Bus.Emulator.Answers.attempt {d : Driver} {e e' : Emulator} {α : Type}
    {dialogue : Drive α} {outcome : Except DriverError α} (h : e.Answers d)
    (asks : dialogue.Asks d.Addresses)
    (holds : dialogue.hold Emulator.platform e = (outcome, e')) :
    dialogue.attempt (d.on Emulator.platform) e = (some outcome, e') := by
  have answered : dialogue.attempt (d.on Emulator.platform) e =
      (some (dialogue.hold (d.on Emulator.platform) e).1,
        (dialogue.hold (d.on Emulator.platform) e).2) :=
    attempt_eq_hold (I := fun e => e.Answers d)
      (fun query e own answers => answers.not_stops own)
      (fun query e answers => answers.of_same (e.base_answer query)
        (e.sameKind_answer query).capability) asks h
  rw [answered, Driver.hold_on, holds]

-- =============================================================== stopped

section

variable {config : DriverConfig} {e : Emulator} {α : Type}
  (base : e.base = config.base)
  (same : e.controller.capability = config.variant.capability)
  (beyond : ¬ config.Addressable)

include base same beyond

/-- A driver whose window cannot be addressed does not get past the first
look at a thread. -/
theorem DriverConfig.attempt_state (thread : Thread)
    (f : ThreadState → Drive α) :
    (config.driver.state thread >>= f).attempt
      (config.driver.on Emulator.platform) e = (none, e) := by
  cases thread with
  | manager =>
      have inside : Register.dsr < Register.windowSize := by decide
      exact attempt_ask_of_stops
        (DriverConfig.stops_of_not_addressable base same beyond inside rfl)
  | channel n =>
      exact attempt_ask_of_stops
        (DriverConfig.stops_of_not_addressable base same beyond
          (Driver.csr_inside n) rfl)

theorem DriverConfig.attempt_start {context : Context} {n : UInt8}
    (on : context.thread = .channel n) (program : Microprogram) :
    (config.driver.start context program).attempt
      (config.driver.on Emulator.platform) e = (none, e) := by
  rw [Driver.start, on]
  exact DriverConfig.attempt_state base same beyond ..

theorem DriverConfig.attempt_kill (context : Context) :
    (config.driver.kill context).attempt
      (config.driver.on Emulator.platform) e = (none, e) :=
  DriverConfig.attempt_state base same beyond ..

theorem DriverConfig.attempt_finish (context : Context)
    (patience : Driver.Patience) :
    (config.driver.finish context patience).attempt
      (config.driver.on Emulator.platform) e = (none, e) := by
  cases patience <;>
    exact attempt_poll_of_stops
      (fun _ => DriverConfig.attempt_state base same beyond ..) _

end

end DmaController
