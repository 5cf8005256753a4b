/-
A copy from its request to the last byte. A program that a driver built
for a copy from memory to memory is started on a controller at rest, and
waited for: the start succeeds, the wait succeeds if it is long enough,
and memory is what a copy makes of it (`Memory.Copies`), the original
bytes at the destination and no other byte changed.

Nothing of the path is left out. The plan covers the bytes, the builder
lays its program out, the debug interface starts it, the channel fetches
and runs it through any number of nests, and the driver sees it stop.
-/
import DmaController.Proofs.Driver.WholeRun
import DmaController.Proofs.Transfer.Copies

namespace DmaController

open Bus (Emulator)

/-- The bytes a program moves of those that were asked for. -/
def Microprogram.moved (program : Microprogram) (req : Request) : Nat :=
  req.size.toNat - program.residue.toNat

namespace Driver

/-- A wait for a copy that was started ends well: it succeeds, and then
the channel is stopped and memory is that of the copy. -/
def SeesCopy (d : Driver) (e e₁ : Emulator) (started : Context) (n : UInt8)
    (program : Microprogram) (req : Request) (patience : Patience) : Prop :=
  ∃ ended e₂, (d.finish started patience).attempt (d.on Emulator.platform) e₁ =
    (some (.ok ended), e₂) ∧
    (e₂.controller.channels[n.toNat]?).map Channel.status = some .stopped ∧
    e.memory.Copies e₂.memory req.source.toNat req.destination.toNat
      (program.moved req)

/-- A program is started, waited for, and has copied what it was built
for: the start succeeds, and so does a wait without a bound. So does every
wait that is long enough, if the copy does not take more milliseconds than
a word can say. -/
def CopiesWholly (d : Driver) (e : Emulator) (context : Context) (n : UInt8)
    (program : Microprogram) (req : Request) : Prop :=
  ∃ started e₁, (d.start context program).attempt (d.on Emulator.platform) e =
    (some (.ok started), e₁) ∧
    d.SeesCopy e e₁ started n program req .unbounded ∧
    (program.plan.ticks req < (UInt32.size - 1) * e.stepsPerMs.toNat →
      ∃ waited : UInt32, ∀ ms, waited ≤ ms →
        d.SeesCopy e e₁ started n program req (.millis ms))

/-- A run that leaves memory as the copy does copies wholly. -/
theorem RunsWholly.copiesWholly {d : Driver} {e : Emulator} {context : Context}
    {n : UInt8} {program : Microprogram} {req : Request} {m' : Memory}
    (h : d.RunsWholly e context n program (program.plan.ticks req) m')
    (copies : e.memory.Copies m' req.source.toNat req.destination.toNat
      (program.moved req)) :
    d.CopiesWholly e context n program req := by
  obtain ⟨started, e₁, starts, -, waits⟩ := h
  have sees {patience : Patience}
      (patient : patience.Outlasts (program.plan.ticks req) (e.slice 1)) :
      d.SeesCopy e e₁ started n program req patience := by
    obtain ⟨ended, k, finishes, stopped, memory⟩ := waits patience patient
    exact ⟨ended, _, finishes, stopped, memory ▸ copies⟩
  refine ⟨started, e₁, starts, sees trivial, fun word => ?_⟩
  rw [← Emulator.slice_one] at word
  obtain ⟨waited, enough⟩ := Patience.exists_covers word
  exact ⟨waited, fun ms long =>
    sees (enough (.millis ms) (UInt32.le_iff_toNat_le.1 long))⟩

end Driver

/-- At ten ticks a millisecond a word can count the milliseconds of any
copy. -/
theorem Plan.ticks_lt_word {cap : Capability} {req : Request} {mode : Mode}
    {plan : Plan} (bus : cap.maxBurstSize.toNat ≤ 7)
    (planned : req.plan cap mode = .ok plan) {pace : UInt32}
    (fast : 10 ≤ pace) :
    plan.ticks req < (UInt32.size - 1) * pace.toNat := by
  have most := Plan.ticks_le bus planned
  have size := req.size.toNat_lt
  have ten : 10 ≤ pace.toNat := UInt32.le_iff_toNat_le.1 fast
  have enough := Nat.mul_le_mul_left (UInt32.size - 1) ten
  have word : UInt32.size = 2 ^ 32 := rfl
  rw [word] at enough ⊢
  omega

/-- A copy from memory to memory that a driver built for its controller
is carried out as a whole. -/
theorem copies_wholly {config : DriverConfig} {e : Emulator}
    {context : Context} {n : UInt8} {req : Request} {buffer : ProgramBuffer}
    {program : Microprogram}
    (kept : e.Kept config.variant.capability config.base)
    (ends : config.Addressable) (awake : e.controller.halted = false)
    (ticks : 1 ≤ e.stepsPerMs)
    (idle : ∀ ch ∈ e.controller.channels, ch.status = .stopped)
    (on : context.thread = .channel n)
    (exist : n < config.variant.capability.numChannels)
    (built : (config.driver.build req buffer).result = .ok program)
    (direction : req.direction = .memoryToMemory) (plain : req.swap = .none)
    (allowed : req.security = .nonSecure ∨ config.security = .secure)
    (reads : e.memory.Holds req.source.toNat (program.moved req))
    (writes : e.memory.Holds req.destination.toNat (program.moved req))
    (downward : Downward req.source.toNat req.destination.toNat
      (program.moved req))
    (code : e.memory.HoldsBytes program.busAddress.toNat program.code)
    (below : program.busAddress.toNat + program.code.length ≤ UInt32.size)
    (apart : ∀ a, program.busAddress.toNat ≤ a →
      a < program.busAddress.toNat + program.code.length →
      ¬ (req.destination.toNat ≤ a ∧
        a < req.destination.toNat + program.moved req)) :
    config.driver.CopiesWholly e context n program req ∧
      (10 ≤ e.stepsPerMs →
        program.plan.ticks req < (UInt32.size - 1) * e.stepsPerMs.toNat) := by
  obtain ⟨bus, -, -⟩ := config.variant.capability_suffices
  obtain ⟨plan, planned, rfl⟩ := Request.program_of_buildIn built
  refine ⟨?_, Plan.ticks_lt_word bus planned⟩
  have moved : (plan.program req buffer.busAddress).moved req = plan.bytes := by
    have bytes := Plan.bytes_add_residue bus planned
    unfold Microprogram.moved Microprogram.residue
    simp only [Plan.program]
    omega
  rw [moved] at reads writes downward apart
  obtain ⟨m', all, copies⟩ :=
    Plan.copies planned bus direction plain reads writes downward
  rw [← moved] at copies
  have runs := Plan.runs_wholly kept ends awake ticks idle on exist planned
    (Plan.not_refuses allowed) code below (Plan.sparesRange_of_apart apart) all
  exact runs.copiesWholly copies

-- ========================================================== a short copy

/-- Sixteen bytes are copied to eight bytes before them. -/
def shortCopy : Request :=
  .memoryToMemory 0x90 0x88 16 0

/-- The program of this copy, to stand at the start of memory. -/
def shortCopyProgram : Microprogram where
  code :=
    [0xbc, 0, 0x90, 0, 0, 0, 0xbc, 2, 0x88, 0, 0, 0, 0xbc, 1, 0xf1, 0x49, 0x7c,
      2, 0x20, 0, 4, 0x12, 8, 0x13, 0x38, 4, 0]
  busAddress := 0
  nonSecure := false
  plan := ⟨.copy, [⟨.burst, ⟨0x027c49f1⟩, 16, [⟨1, none⟩]⟩], 0⟩

/-- A memory that has the program, and something to copy. -/
def shortCopyMemory : Memory :=
  ((Memory.zeroed 0 0x100).put 0 shortCopyProgram.code).put 0x90 [1, 2, 3]

/-- Both kinds of controllers are given the same program. -/
theorem build_shortCopy (variant : Variant) :
    (shortCopy.build variant.capability ⟨List.replicate 32 0, 0⟩).result =
      .ok shortCopyProgram := by
  cases variant <;> decide +kernel

theorem holdsBytes_shortCopyMemory :
    shortCopyMemory.HoldsBytes shortCopyProgram.busAddress.toNat
      shortCopyProgram.code := by
  unfold Memory.HoldsBytes
  decide +kernel

/-- The short copy is carried out as a whole, although what it writes
overlaps what it reads; and there is a number of milliseconds that is
enough for it. -/
theorem copies_wholly_overlapping :
    (DriverConfig.mk .pl330 0x20000000 .secure 100 100).driver.CopiesWholly
        (.new .pl330 0x20000000 shortCopyMemory) { thread := .channel 0 } 0
        shortCopyProgram shortCopy ∧
      shortCopyProgram.plan.ticks shortCopy <
        (UInt32.size - 1) * Emulator.defaultStepsPerMs.toNat := by
  have behind : ¬ shortCopy.destination.toNat <
      shortCopyProgram.busAddress.toNat + shortCopyProgram.code.length := by
    decide
  exact And.imp_right (fun word => word (by decide)) (copies_wholly
    ⟨rfl, rfl, rfl⟩ (by decide) rfl (by decide) (by decide) rfl (by decide)
    (build_shortCopy .pl330) rfl rfl (.inr rfl) (by decide +kernel)
    (by decide +kernel) (.inl (by decide)) holdsBytes_shortCopyMemory
    (by decide)
    (fun a _ high inside => behind (Nat.lt_of_le_of_lt inside.1 high)))

/-- That both windows exist is not enough: through one that ends with the
address space the start of a copy panics. -/
theorem copy_stopped_at_the_end :
    ¬ ∀ (config : DriverConfig) (e : Emulator) (context : Context)
      (n : UInt8) (req : Request) (buffer : ProgramBuffer)
      (program : Microprogram),
      e.Kept config.variant.capability config.base →
      config.variant.capability.WindowsExist config.base →
      e.controller.halted = false → 1 ≤ e.stepsPerMs →
      (∀ ch ∈ e.controller.channels, ch.status = .stopped) →
      context.thread = .channel n → n < config.variant.capability.numChannels →
      (config.driver.build req buffer).result = .ok program →
      req.direction = .memoryToMemory → req.swap = .none →
      (req.security = .nonSecure ∨ config.security = .secure) →
      e.memory.Holds req.source.toNat (program.moved req) →
      e.memory.Holds req.destination.toNat (program.moved req) →
      Downward req.source.toNat req.destination.toNat (program.moved req) →
      e.memory.HoldsBytes program.busAddress.toNat program.code →
      program.busAddress.toNat + program.code.length ≤ UInt32.size →
      (∀ a, program.busAddress.toNat ≤ a →
        a < program.busAddress.toNat + program.code.length →
        ¬ (req.destination.toNat ≤ a ∧
          a < req.destination.toNat + program.moved req)) →
      config.driver.CopiesWholly e context n program req := by
  intro promised
  have behind : ¬ shortCopy.destination.toNat <
      shortCopyProgram.busAddress.toNat + shortCopyProgram.code.length := by
    decide
  obtain ⟨started, e₁, starts, -⟩ := promised
    ⟨.dma330, 0xffffffffffffe000, .secure, 100, 100⟩
    (.new .dma330 0xffffffffffffe000 shortCopyMemory) { thread := .channel 0 }
    0 shortCopy _ shortCopyProgram ⟨rfl, rfl, rfl⟩ (by decide) rfl (by decide)
    (by decide) rfl (by decide) (build_shortCopy .dma330) rfl rfl (.inr rfl)
    (by decide +kernel) (by decide +kernel) (.inl (by decide))
    holdsBytes_shortCopyMemory (by decide)
    (fun a _ high inside => behind (Nat.lt_of_le_of_lt inside.1 high))
  cases starts.symm.trans
    (DriverConfig.attempt_start rfl rfl (by decide) rfl _)

end DmaController
