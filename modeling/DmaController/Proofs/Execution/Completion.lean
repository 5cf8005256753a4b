/-
Programs that run to their end. If all units of a program's plan lie in
memory, a channel that is started on it executes for some ticks and then
stops; by then memory is what the units make of it, and the accesses that
were made are exactly those that move the units, in their order. At no
tick is the channel in front of an instruction that moves data and made
to skip it by the instruction's condition.
-/
import DmaController.Proofs.Execution.Footprint
import DmaController.Proofs.Microprogram.Layout

namespace DmaController

/-- If the channel is about to execute an instruction that moves data, the
condition of that instruction holds. -/
def Channel.SkipsNothing (ch : Channel) (m : Memory) : Prop :=
  ch.status = .executing → ∀ i, ch.fetch m = .ok i → i.dataFault?.isSome →
    (i.dataAccess? ch.servesBurst).isSome

/-- The channel of a started program, memory, and what was moved, after
any number of ticks: the channel executes for `ticks` ticks, and then it
has moved all blocks. -/
structure Microprogram.Completes (program : Microprogram) (req : Request)
    (m : Memory) (channel : Nat → Option Channel) (memory : Nat → Memory)
    (moves : Nat → List DataMove) (ticks : Nat) : Prop where
  skipsNothing : ∀ k ch, channel k = some ch → ch.SkipsNothing (memory k)
  executing : ∀ k < ticks,
    (channel k).map Channel.status = some .executing
  stopped : ∀ k, ticks < k →
    (channel k).map Channel.status = some .stopped
  memory : ∀ k, ticks ≤ k → memory k =
    (program.plan.blocks req).foldl (Block.moved req.swap) m
  moves : ∀ k, ticks ≤ k → moves k =
    Block.journal req.swap (program.plan.blocks req) m

namespace Job

variable {job : Job} {cap : Capability} {ch : Channel} {events : UInt32}
  {m m' : Memory} {t : Nat} {blocks : List Block}

/-- A channel that follows a job skips nothing. -/
theorem Follows.skipsNothing (h : job.Follows ch m) : ch.SkipsNothing m := by
  intro executing i fetched asks
  obtain ⟨j, fetched', admits⟩ := h.admits executing
  cases fetched.symm.trans fetched'
  exact admits.2.2 asks

/-- Once a program has moved its blocks, it moves nothing more. -/
theorem Outcome.moves_moved
    (h : job.Outcome cap t blocks (·.status = .completing) ch events m)
    (moved : Block.moveAll job.swap blocks m = (m', none)) {k : Nat}
    (late : t ≤ k) :
    ch.moves cap k ⟨events, m⟩ = Block.journal job.swap blocks m := by
  rw [Outcome, moved] at h
  obtain ⟨ch', passes, completing⟩ := h
  obtain ⟨j, rfl⟩ := Nat.exists_eq_add_of_le late
  rw [Channel.moves_add, passes.course.run_eq, passes.moves,
    Channel.moves_ending (Or.inl completing), List.append_nil]

/-- The account of a run, once its outcome is known. -/
theorem Outcome.completes {program : Microprogram} {req : Request}
    {channel : Nat → Option Channel} {memory : Nat → Memory}
    {moves : Nat → List DataMove}
    (h : job.Outcome cap t (program.plan.blocks req) (·.status = .completing) ch
      events m)
    (stays : ∀ b ∈ program.plan.blocks req, b.Stays m)
    (swap : job.swap = req.swap)
    (channels : ∀ k, channel k = some (Channel.run cap k ch ⟨events, m⟩).1)
    (memories : ∀ k, memory k = (Channel.run cap k ch ⟨events, m⟩).2.memory)
    (accesses : ∀ k, moves k = Channel.moves cap k ch ⟨events, m⟩) :
    program.Completes req m channel memory moves t := by
  have moved : Block.moveAll job.swap (program.plan.blocks req) m = _ :=
    Block.moveAll_of_stays stays
  have run := h.run_moved moved
  unfold statusAfter at run
  refine ⟨fun k ch' at_k => ?_, fun k early => ?_, fun k late => ?_,
    fun k late => ?_, fun k late => ?_⟩
  · rw [channels] at at_k
    cases at_k
    rw [memories]
    exact (h.followedBy k).skipsNothing
  · rw [channels, Option.map_some, (run k).1, if_pos early]
  · rw [channels, Option.map_some, (run k).1, if_neg (by omega),
      if_neg (by omega)]
  · rw [memories, (run k).2 late, swap]
  · rw [accesses, h.moves_moved moved late, swap]

end Job

/-- A built program whose units all lie in memory, started in its own
security state on a controller whose other channels are at rest, runs to
its end. -/
theorem built_program_completes {variant : Variant} {req : Request}
    {mode : Mode} {buffer : ProgramBuffer} {program : Microprogram}
    {c : Controller} {n : UInt8} {window : Security} {idle : Channel}
    {m : Memory}
    (built : (req.buildIn mode variant.capability buffer).result = .ok program)
    (code : m.HoldsBytes program.busAddress.toNat program.code)
    (below : program.busAddress.toNat + program.code.length ≤ UInt32.size)
    (spared : ∀ b ∈ program.plan.blocks req,
      b.SparesRange program.busAddress.toNat program.code.length)
    (stays : ∀ b ∈ program.plan.blocks req, b.Stays m)
    (same : c.capability = variant.capability)
    (there : c.channels[n.toNat]? = some idle) (stopped : idle.status = .stopped)
    (others : c.RestsBut n.toNat)
    (allowed : window = .secure ∨ program.nonSecure = true) :
    program.Completes req m
      (fun k => ((c.managerCommand window
        (.go n program.busAddress program.nonSecure)).run
          m k).1.channels[n.toNat]?)
      (fun k => ((c.managerCommand window
        (.go n program.busAddress program.nonSecure)).run m k).2)
      (fun k => (c.managerCommand window
        (.go n program.busAddress program.nonSecure)).moves m k n.toNat)
      (program.plan.ticks req) := by
  obtain ⟨bus, lines, periphs⟩ := variant.capability_suffices
  obtain ⟨plan, planned, rfl⟩ := Request.program_of_buildIn built
  have base : buffer.busAddress = UInt32.ofNat buffer.busAddress.toNat :=
    UInt32.ofNat_toNat.symm
  rw [Plan.program, Instruction.length_assemble] at below spared
  have sound : (plan.job req buffer.busAddress.toNat).Sound :=
    Plan.sound_job bus (UInt8.le_iff_toNat_le.2 periphs) planned below spared
  have outcome := Plan.outcome bus lines planned sound code c.events
  rw [← base, ← same] at outcome
  rw [Controller.managerCommand_go there stopped allowed]
  have started := Controller.channel_setChannel there
    (.started buffer.busAddress (decide (req.security = .nonSecure)))
  have alone := others.setChannel
    (.started buffer.busAddress (decide (req.security = .nonSecure)))
  refine outcome.completes stays rfl
    (Controller.channel_run_of_restsBut started alone m) (fun k => ?_)
    (Controller.moves_of_restsBut started alone m)
  exact congrArg Prod.snd (Controller.run_of_restsBut started alone m k)

end DmaController
