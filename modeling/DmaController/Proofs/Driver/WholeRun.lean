/-
A program from its start to the end that a driver sees. A program that
was built for a controller is started on it at rest and waited for: if
all the units of its plan lie in memory, the start succeeds, every wait
that is long enough succeeds, and memory is what the units made of it.

What the units make of memory is a question about plans alone, for a copy
as for a zero fill. Here is the rest of the path: the debug interface
starts the program, the channel fetches and runs it, and the driver looks
until it sees it stop.
-/
import DmaController.Proofs.Driver.Attempts
import DmaController.Proofs.Driver.Start
import DmaController.Proofs.Driver.Waiting
import DmaController.Proofs.Execution.Duration
import DmaController.Proofs.Execution.Footprint
import DmaController.Proofs.Microprogram.Layout

namespace DmaController

open Bus (Dialogue Emulator)
open Bus.Dialogue (hold_bind_ok)

namespace Driver

variable {d : Driver} {e : Emulator} {n : UInt8} {ch : Channel}

/-- A wait for the only busy channel that outlasts its run succeeds if the
run ends well. -/
theorem hold_finish_outlasting (h : d.Attached e)
    (there : e.controller.channels[n.toNat]? = some ch)
    (rests : e.controller.RestsBut n.toNat) {ticks : Nat} {m' : Memory}
    (short : ticks < forever)
    (ends : ∀ k, (ch.run e.controller.capability k
      ⟨e.controller.events, e.memory⟩).1.status = Job.statusAfter ticks k)
    (leaves : ∀ k, ticks ≤ k → (ch.run e.controller.capability k
      ⟨e.controller.events, e.memory⟩).2.memory = m')
    {context : Context} (on : context.thread = .channel n) {patience : Patience}
    (patient : patience.Outlasts ticks (e.slice 1)) :
    ∃ k, (d.finish context patience).hold Emulator.platform e =
        (.ok { context with programBase := none }, e.run k) ∧
      ((e.run k).controller.channels[n.toNat]?).map Channel.status =
        some .stopped ∧
      (e.run k).memory = m' := by
  have late {k : Nat} (hk : ticks < k) := Job.statusAfter_of_lt hk
  obtain ⟨k, passed, waits⟩ := hold_awaitState_solo h there rests ends
    (fun s => s = .stopped || s = .faulting) short
    (fun k early => by
      rcases Job.statusAfter_of_le early with status | status <;>
        rw [status] <;> rfl)
    (fun k passed => by rw [late passed]; rfl) patient
  refine ⟨k, ?_, ?_, ?_⟩
  · rw [late passed] at waits
    rw [finish, on, hold_bind_ok _ waits]
    rfl
  · rw [Emulator.channel_run there rests, Option.map_some, ends, late passed]
  · rw [Emulator.memory_run there rests, leaves k (Nat.le_of_lt passed)]

/-- A program is started and waited for, and memory is then `m'`: the
start succeeds, every wait that outlasts `ticks` ticks does and finds the
channel stopped, and the code of the program stands all the time. -/
def RunsWholly (d : Driver) (e : Emulator) (context : Context) (n : UInt8)
    (program : Microprogram) (ticks : Nat) (m' : Memory) : Prop :=
  ∃ started e₁, (d.start context program).attempt (d.on Emulator.platform) e =
    (some (.ok started), e₁) ∧
    (∀ k, (e₁.run k).memory.HoldsBytes program.busAddress.toNat program.code) ∧
    ∀ patience : Patience, patience.Outlasts ticks (e.slice 1) →
      ∃ ended k, (d.finish started patience).attempt (d.on Emulator.platform)
          e₁ = (some (.ok ended), e₁.run k) ∧
        ((e₁.run k).controller.channels[n.toNat]?).map Channel.status =
          some .stopped ∧
        (e₁.run k).memory = m'

end Driver

/-- A non-secure program is accepted through either window, and the
secure window accepts either program. -/
theorem Plan.not_refuses {config : DriverConfig} {req : Request}
    {plan : Plan} {base : UInt32}
    (allowed : req.security = .nonSecure ∨ config.security = .secure) :
    ¬ config.driver.Refuses (plan.program req base) := by
  intro refused
  obtain ⟨side, secure⟩ := refused
  rcases allowed with nonSecure | closed
  · exact absurd nonSecure (of_decide_eq_false secure)
  · cases side.symm.trans closed

/-- The program of a plan whose units all lie in memory runs from its
start to its end. -/
theorem Plan.runs_wholly {config : DriverConfig} {e : Emulator}
    {context : Context} {n : UInt8} {req : Request} {mode : Mode}
    {plan : Plan} {base : UInt32} {m' : Memory}
    (kept : e.Kept config.variant.capability config.base)
    (ends : config.Addressable) (awake : e.controller.halted = false)
    (pace : 1 ≤ e.stepsPerMs)
    (idle : ∀ ch ∈ e.controller.channels, ch.status = .stopped)
    (on : context.thread = .channel n)
    (exist : n < config.variant.capability.numChannels)
    (planned : req.plan config.variant.capability mode = .ok plan)
    (accepts : ¬ config.driver.Refuses (plan.program req base))
    (code : e.memory.HoldsBytes base.toNat (plan.program req base).code)
    (below : base.toNat + (plan.program req base).code.length ≤ UInt32.size)
    (spared : ∀ b ∈ plan.blocks req,
      b.SparesRange base.toNat (plan.program req base).code.length)
    (all : Block.moveAll req.swap (plan.blocks req) e.memory = (m', none)) :
    config.driver.RunsWholly e context n (plan.program req base)
      (plan.ticks req) m' := by
  obtain ⟨bus, lines, periphs⟩ := config.variant.capability_suffices
  rw [Plan.program, Instruction.length_assemble] at below spared
  have attached := kept.attached ends awake pace
  have small : n.toNat < e.controller.channels.length := by
    rw [kept.count]
    exact UInt8.lt_iff_toNat_lt.1 exist
  have there := List.getElem?_eq_getElem small
  obtain ⟨inst0, inst1, starts⟩ := Driver.hold_start_stopped attached.reaches
    there (idle _ (List.getElem_mem small)) accepts on
  -- what the channel does from its start on, tick by tick
  have sound : (plan.job req base.toNat).Sound :=
    Plan.sound_job bus periphs planned below spared
  have outcome := Plan.outcome bus lines planned sound code e.controller.events
  rw [UInt32.ofNat_toNat, ← kept.capability] at outcome
  have run := outcome.run_moved all
  -- what the driver sees of it
  have short : plan.ticks req < Driver.forever := by
    have most := Plan.ticks_le bus planned
    have size := req.size.toNat_lt
    have forever : Driver.forever = 2 ^ 64 := rfl
    omega
  have others : (e.controller.besides .stopped inst0 inst1).RestsBut n.toNat :=
    fun k other at_k _ => Or.inl (idle other (List.mem_of_getElem? at_k))
  have begun := attached.become
    (c := (e.controller.besides .stopped inst0 inst1).setChannel n.toNat
      (.started base (decide (req.security = .nonSecure))))
    rfl rfl List.length_set
  have still : Context.thread { context with programBase := some base } =
      .channel n := on
  refine ⟨_, _, attached.answers.attempt (Driver.asks_start ..) starts,
    fun k => ?_, fun patience patient => ?_⟩
  · rw [Emulator.memory_run (Controller.channel_setChannel there _)
      (others.setChannel _)]
    exact outcome.loaded_run sound (plan.signals_instructions req) code k
  · obtain ⟨k, finishes, stopped, memory⟩ := Driver.hold_finish_outlasting
      begun (Controller.channel_setChannel there _) (others.setChannel _) short
      (fun k => (run k).1)
      (fun k late => congrArg Shared.memory ((run k).2 late)) still patient
    exact ⟨_, k, begun.answers.attempt (Driver.asks_finish ..) finishes,
      stopped, memory⟩

end DmaController
