/-
The faults of built programs. A program that planning built faults only
at an instruction that moves data, only because the data of a unit does
not lie in memory, and with the units before it moved and nothing else
changed; if every unit lies in memory it ends, with all of them moved.

Everything else an instruction can be refused for is out of reach of a
built program, at every point of a run of any length: code that stays in
place can be fetched and decoded, peripherals exist, the security of the
control word is that of the thread, and the buffer has room for a unit
and holds one whenever it is stored.
-/
import DmaController.Proofs.Controller.Solo
import DmaController.Proofs.Execution.Verdict
import DmaController.Proofs.Microprogram.Layout

namespace DmaController

/-- The channel of a started program, and memory, after any number of
ticks: `channel k` and `memory k`, from the memory `m` on. -/
structure Microprogram.FaultsExactly (program : Microprogram)
    (req : Request) (m : Memory) (channel : Nat → Option Channel)
    (memory : Nat → Memory) : Prop where
  /-- The channel is in one of five states. -/
  states : ∀ k, ∃ ch, channel k = some ch ∧
    (ch.status = .executing ∨ ch.status = .completing ∨ ch.status = .stopped ∨
      (∃ cause, ch.status = .faultCompleting cause) ∨
      ∃ cause, ch.status = .faulting cause)
  /-- It faults if some unit leaves memory, and only then. -/
  faults : (∃ k ch cause, channel k = some ch ∧ ch.status.cause? = some cause) ↔
    ∃ b ∈ program.plan.blocks req, ¬ b.Stays m
  /-- A fault names the missing side of a unit, at an instruction of the
  program's listing that accesses this side; all units before this one
  were moved, and nothing else was changed. -/
  place : ∀ k ch cause, channel k = some ch → ch.status.cause? = some cause →
    ch.faultBits = cause.flag ∧
    (∃ i, ⟨(ch.pc - program.busAddress).toNat, .ok i⟩ ∈
        disassemble program.code ∧
      i.dataFault? = some cause) ∧
    ∃ before b after, program.plan.blocks req = before ++ b :: after ∧
      (∀ c ∈ before, c.Stays m) ∧ b.refusal? m = some cause ∧
      memory k = before.foldl (Block.moved req.swap) m
  /-- If no unit leaves memory, the channel ends stopped, and all units
  were moved. -/
  ends : (∀ b ∈ program.plan.blocks req, b.Stays m) →
    ∃ t, (∀ k < t, (channel k).map Channel.status = some .executing) ∧
      (∀ k, t < k → (channel k).map Channel.status = some .stopped) ∧
      ∀ k, t ≤ k → memory k =
        (program.plan.blocks req).foldl (Block.moved req.swap) m

namespace Job

variable {job : Job}

/-- An instruction of the program has its entry in the listing. -/
theorem At.listed {a : Nat} {i : Instruction} {rest : List Instruction}
    (here : job.At a (i :: rest)) (range : ∀ i ∈ job.code, i.InRange) :
    ∃ offset, a = job.base + offset ∧
      ⟨offset, .ok i⟩ ∈ disassemble (Instruction.assemble job.code) := by
  obtain ⟨before, after, parts, place⟩ := here
  refine ⟨Instruction.totalLength before, place, ?_⟩
  have normal : i.normalize = i := (range i (by rw [parts]; simp)).normalize_eq
  have entry := Instruction.mem_entriesFrom_append before i (rest ++ after) 0
  rw [Nat.zero_add, normal] at entry
  rwa [disassemble, Instruction.disassembleFrom_assemble, parts,
    List.append_assoc]

section

variable {cap : Capability} {ch : Channel} {events : UInt32} {m m' : Memory}
  {t : Nat} {program : Microprogram} {req : Request}
  {channel : Nat → Option Channel} {memory : Nat → Memory}

theorem Outcome.faultsExactly_of_moved
    (h : job.Outcome cap t (program.plan.blocks req) (·.status = .completing) ch
      events m)
    (moved : Block.moveAll job.swap (program.plan.blocks req) m = (m', none))
    (swap : job.swap = req.swap)
    (channels : ∀ k, channel k = some (Channel.run cap k ch ⟨events, m⟩).1)
    (memories : ∀ k, memory k = (Channel.run cap k ch ⟨events, m⟩).2.memory) :
    program.FaultsExactly req m channel memory := by
  have run := h.run_moved moved
  have stays : ∀ b ∈ program.plan.blocks req, b.Stays m := by
    intro b mem
    refine Decidable.byContradiction fun leaves => ?_
    exact (Block.moveAll_faults_iff job.swap _ m).2 ⟨b, mem, leaves⟩
      (by rw [moved])
  have whole : m' =
      (program.plan.blocks req).foldl (Block.moved req.swap) m := by
    rw [Block.moveAll_of_stays stays, swap] at moved
    exact (congrArg Prod.fst moved).symm
  have status (k : Nat) := (run k).1
  unfold statusAfter at status
  have none_faults := h.faultless_of_moved moved
  refine ⟨fun k => ⟨_, channels k, ?_⟩, ⟨?_, ?_⟩, ?_, fun _ => ⟨t, ?_, ?_, ?_⟩⟩
  · rw [status]
    split
    · exact Or.inl rfl
    · split
      · exact Or.inr (Or.inl rfl)
      · exact Or.inr (Or.inr (Or.inl rfl))
  · intro faulted
    obtain ⟨k, ch', cause, at_k, fault⟩ := faulted
    rw [channels] at at_k
    cases at_k
    rw [none_faults] at fault
    cases fault
  · intro missing
    obtain ⟨b, mem, leaves⟩ := missing
    exact absurd (stays b mem) leaves
  · intro k ch' cause at_k fault
    rw [channels] at at_k
    cases at_k
    rw [none_faults] at fault
    cases fault
  · intro k early
    rw [channels, Option.map_some, status, if_pos early]
  · intro k late
    rw [channels, Option.map_some, status, if_neg (by omega), if_neg (by omega)]
  · intro k late
    rw [memories, (run k).2 late, whole]

theorem Outcome.faultsExactly_of_missed (sound : job.Sound)
    (h : job.Outcome cap t (program.plan.blocks req) (·.status = .completing) ch
      events m)
    {cause : ChannelFault}
    (missed : Block.moveAll job.swap (program.plan.blocks req) m =
      (m', some cause))
    (code : program.code = Instruction.assemble job.code)
    (base : program.busAddress = UInt32.ofNat job.base)
    (swap : job.swap = req.swap)
    (channels : ∀ k, channel k = some (Channel.run cap k ch ⟨events, m⟩).1)
    (memories : ∀ k, memory k = (Channel.run cap k ch ⟨events, m⟩).2.memory) :
    program.FaultsExactly req m channel memory := by
  obtain ⟨n, stuck, fault, run⟩ := h.run_stuck missed
  have leaves : ∃ b ∈ program.plan.blocks req, ¬ b.Stays m :=
    (Block.moveAll_faults_iff job.swap _ m).1 (by rw [missed]; exact nofun)
  obtain ⟨before, b, after, parts, stays, refusal, partly⟩ :=
    Block.moveAll_of_fault missed
  rw [swap] at partly
  obtain ⟨a, i, rest, here, pc, asks, -, -⟩ := fault.place
  obtain ⟨offset, place, listed⟩ := here.listed sound.range
  have offset_eq : (stuck.pc - program.busAddress).toNat = offset := by
    have inside := here.end_le
    have below := sound.below
    have pos := i.length_pos
    rw [Instruction.totalLength_cons] at inside
    rw [pc, place, base, Nat.add_comm, ← word_add, UInt32.add_sub_cancel,
      toNat_word (by omega)]
  refine ⟨fun k => ⟨_, channels k, ?_⟩, ⟨fun _ => leaves, fun _ => ?_⟩,
    ?_, fun all => ?_⟩
  · have run := run k
    split at run
    · exact Or.inl run
    · rw [run]
      show _ ∨ _ ∨ _ ∨ (∃ cause', ite _ _ _ = _) ∨ _
      split
      · exact Or.inr (Or.inr (Or.inr (Or.inl ⟨cause, rfl⟩)))
      · exact Or.inr (Or.inr (Or.inr (Or.inr ⟨cause, by simp [*]⟩)))
  · have run := run (n + 1)
    rw [if_neg (by omega), if_pos rfl] at run
    exact ⟨n + 1, _, cause, channels (n + 1), by rw [run]; rfl⟩
  · intro k ch' cause' at_k faulted
    rw [channels] at at_k
    cases at_k
    have run := run k
    split at run
    · rw [run] at faulted
      cases faulted
    · have cause_eq : cause' = cause := by
        rw [run] at faulted
        simp only at faulted
        split at faulted <;> exact (Option.some.inj faulted).symm
      subst cause_eq
      refine ⟨?_, ⟨i, ?_, asks⟩, before, b, after, parts, stays, refusal, ?_⟩
      · rw [Channel.faultBits, faulted]
      · rw [run, code]
        exact offset_eq ▸ listed
      · rw [memories, run, partly]
  · obtain ⟨b, mem, missing⟩ := leaves
    exact absurd (all b mem) missing

/-- The verdict on a run, once its outcome is known. -/
theorem Outcome.faultsExactly (sound : job.Sound)
    (h : job.Outcome cap t (program.plan.blocks req) (·.status = .completing) ch
      events m)
    (code : program.code = Instruction.assemble job.code)
    (base : program.busAddress = UInt32.ofNat job.base)
    (swap : job.swap = req.swap)
    (channels : ∀ k, channel k = some (Channel.run cap k ch ⟨events, m⟩).1)
    (memories : ∀ k, memory k = (Channel.run cap k ch ⟨events, m⟩).2.memory) :
    program.FaultsExactly req m channel memory := by
  cases moved : Block.moveAll job.swap (program.plan.blocks req) m with
  | mk m' fault =>
      cases fault with
      | none => exact h.faultsExactly_of_moved moved swap channels memories
      | some cause =>
          exact h.faultsExactly_of_missed sound moved code base swap channels
            memories

end

end Job

/-- A built program that was started in its own security state, on a
controller whose other channels are at rest, faults exactly if a unit of
its plan leaves memory. -/
theorem built_program_faultsExactly {cap : Capability} {req : Request}
    {mode : Mode} {buffer : ProgramBuffer} {program : Microprogram}
    {c : Controller} {n : UInt8} {window : Security} {idle : Channel}
    {m : Memory}
    (bus : cap.maxBurstSize ≤ 7) (lines : 16 ≤ cap.mfifoLines)
    (periphs : cap.numPeriph ≤ 32)
    (built : (req.buildIn mode cap buffer).result = .ok program)
    (code : m.HoldsBytes program.busAddress.toNat program.code)
    (below : program.busAddress.toNat + program.code.length ≤ UInt32.size)
    (apart : ∀ b ∈ program.plan.blocks req,
      b.SparesRange program.busAddress.toNat program.code.length)
    (same : c.capability = cap) (there : c.channels[n.toNat]? = some idle)
    (stopped : idle.status = .stopped) (others : c.RestsBut n.toNat)
    (allowed : window = .secure ∨ program.nonSecure = true) :
    program.FaultsExactly req m
      (fun k => ((c.managerCommand window
        (.go n program.busAddress program.nonSecure)).run
          m k).1.channels[n.toNat]?)
      (fun k => ((c.managerCommand window
        (.go n program.busAddress program.nonSecure)).run m k).2) := by
  have bus : cap.maxBurstSize.toNat ≤ 7 := UInt8.le_iff_toNat_le.1 bus
  have lines : 16 ≤ cap.mfifoLines.toNat := UInt16.le_iff_toNat_le.1 lines
  obtain ⟨plan, planned, rfl⟩ := Request.program_of_buildIn built
  have base : buffer.busAddress = UInt32.ofNat buffer.busAddress.toNat :=
    UInt32.ofNat_toNat.symm
  rw [Plan.program, Instruction.length_assemble] at below apart
  have sound : (plan.job req buffer.busAddress.toNat).Sound :=
    Plan.sound_job bus periphs planned below apart
  have outcome := Plan.outcome bus lines planned sound code c.events
  rw [← base] at outcome
  rw [Controller.managerCommand_go there stopped allowed]
  have started := Controller.channel_setChannel there
    (.started buffer.busAddress (decide (req.security = .nonSecure)))
  have alone := others.setChannel
    (.started buffer.busAddress (decide (req.security = .nonSecure)))
  refine Job.Outcome.faultsExactly sound outcome rfl base rfl
    (fun k => ?_) fun k => ?_
  · rw [← same]
    exact Controller.channel_run_of_restsBut started alone m k
  · rw [← same]
    exact congrArg Prod.snd (Controller.run_of_restsBut started alone m k)

/-- A copy from where there is no memory. -/
theorem built_program_faultsExactly_missing_source :
    ∃ program, ((Request.memoryToMemory 0x1000 0x80 16 0).buildIn .copy .pl330
        ⟨List.replicate 32 0, 0⟩).result = .ok program ∧
      program.FaultsExactly (Request.memoryToMemory 0x1000 0x80 16 0)
        ((Memory.zeroed 0 0x100).put 0 program.code)
        (fun k => (((Controller.new .pl330).managerCommand .secure
          (.go 0 program.busAddress program.nonSecure)).run
            ((Memory.zeroed 0 0x100).put 0 program.code) k).1.channels[
              (0 : UInt8).toNat]?)
        (fun k => (((Controller.new .pl330).managerCommand .secure
          (.go 0 program.busAddress program.nonSecure)).run
            ((Memory.zeroed 0 0x100).put 0 program.code) k).2) := by
  obtain ⟨plan, planned, small, blocks⟩ :
      ∃ plan,
        (Request.memoryToMemory 0x1000 0x80 16 0).plan .pl330 .copy = .ok plan ∧
        Instruction.totalLength
          (plan.instructions (.memoryToMemory 0x1000 0x80 16 0)) ≤ 32 ∧
        plan.blocks (.memoryToMemory 0x1000 0x80 16 0) =
          [⟨some 0x1000, 0x80, 16⟩] :=
    ⟨_, rfl, by decide +kernel, by decide +kernel⟩
  have built : ((Request.memoryToMemory 0x1000 0x80 16 0).buildIn .copy .pl330
      ⟨List.replicate 32 0, 0⟩).result =
        .ok (plan.program (.memoryToMemory 0x1000 0x80 16 0) 0) := by
    rw [Request.buildIn, planned]
    exact congrArg Build.result (Plan.build_of_fits small)
  rw [← Instruction.length_assemble] at small
  refine ⟨_, built,
    built_program_faultsExactly (by decide) (by decide) (by decide) built ?_ ?_
    ?_ rfl rfl rfl (Controller.restsBut_new _ _) (.inl rfl)⟩
  · refine Memory.holdsBytes_put ⟨by decide, ?_⟩
    exact Nat.le_trans (Nat.add_le_add_left small _) (by decide)
  · exact Nat.le_trans (Nat.add_le_add_left small 0) (by decide)
  · intro b mem a low high
    obtain rfl := List.mem_singleton.1 (blocks ▸ mem)
    have before : a < 32 :=
      Nat.lt_of_lt_of_le high (Nat.add_le_add_left small 0)
    exact fun inside =>
      absurd inside.1 (Nat.not_le.2 (Nat.lt_trans before (by decide)))

end DmaController
