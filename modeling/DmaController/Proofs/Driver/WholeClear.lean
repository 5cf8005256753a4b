/-
A zero fill from its request to the last byte. A program that a driver
built to clear memory is started on a controller at rest, and waited for:
the start succeeds, whichever window the driver uses, since the program
was built for the security of that window; the wait succeeds if it is
long enough, and a number of milliseconds that a word can say always is;
and every byte that was asked for is zero, with no other byte changed.
-/
import DmaController.Proofs.Driver.WholeRun
import DmaController.Proofs.Transfer.Clears

namespace DmaController

open Bus (Emulator)

/-- A program is started, waited for, and has cleared what it was built
for: the start succeeds, every wait that is long enough succeeds, and
then the channel is stopped and memory is cleared. -/
def Driver.ClearsWholly (d : Driver) (e : Emulator) (context : Context)
    (n : UInt8) (program : Microprogram) (destination size : UInt32) : Prop :=
  ∃ started e₁, ∃ waited : UInt32,
    (d.start context program).attempt (d.on Emulator.platform) e =
      (some (.ok started), e₁) ∧
    ∀ patience : Patience, patience.Covers waited.toNat →
      ∃ ended e₂, (d.finish started patience).attempt (d.on Emulator.platform)
          e₁ = (some (.ok ended), e₂) ∧
        (e₂.controller.channels[n.toNat]?).map Channel.status = some .stopped ∧
        e.memory.Clears e₂.memory destination.toNat size.toNat

/-- A run that takes no longer than a word can say, and that leaves
memory cleared, clears wholly. -/
theorem Driver.RunsWholly.clearsWholly {d : Driver} {e : Emulator}
    {context : Context} {n : UInt8} {program : Microprogram} {ticks : Nat}
    {m' : Memory} {destination size : UInt32}
    (h : d.RunsWholly e context n program ticks m') (pace : 1 ≤ e.slice 1)
    (word : ticks + 1 < UInt32.size)
    (clears : e.memory.Clears m' destination.toNat size.toNat) :
    d.ClearsWholly e context n program destination size := by
  obtain ⟨started, e₁, starts, -, waits⟩ := h
  have fits : ticks < (UInt32.size - 1) * e.slice 1 :=
    Nat.lt_of_lt_of_le (Nat.lt_sub_of_add_lt word)
      (Nat.le_mul_of_pos_right _ pace)
  obtain ⟨waited, enough⟩ := Patience.exists_covers fits
  refine ⟨started, e₁, waited, starts, fun patience patient => ?_⟩
  obtain ⟨ended, k, finishes, stopped, memory⟩ :=
    waits patience (enough patience patient)
  refine ⟨ended, _, finishes, stopped, ?_⟩
  rw [memory]
  exact clears

/-- A zero fill that a driver built for its controller runs in the
security of the driver's window, leaves nothing behind, and is carried
out as a whole. -/
theorem clears_wholly {config : DriverConfig} {e : Emulator}
    {context : Context} {n : UInt8} {destination size : UInt32}
    {buffer : ProgramBuffer} {program : Microprogram}
    (kept : e.Kept config.variant.capability config.base)
    (ends : config.Addressable) (awake : e.controller.halted = false)
    (pace : 1 ≤ e.stepsPerMs)
    (idle : ∀ ch ∈ e.controller.channels, ch.status = .stopped)
    (on : context.thread = .channel n)
    (exist : n < config.variant.capability.numChannels)
    (built : (config.driver.buildZeroFill destination size buffer).result =
      .ok program)
    (writes : e.memory.Holds destination.toNat size.toNat)
    (code : e.memory.HoldsBytes program.busAddress.toNat program.code)
    (below : program.busAddress.toNat + program.code.length ≤ UInt32.size)
    (apart : ∀ a, program.busAddress.toNat ≤ a →
      a < program.busAddress.toNat + program.code.length →
      ¬ (destination.toNat ≤ a ∧ a < destination.toNat + size.toNat)) :
    program.nonSecure = decide (config.security = .nonSecure) ∧
      program.residue = 0 ∧
      config.driver.ClearsWholly e context n program destination size := by
  obtain ⟨bus, -, -⟩ := config.variant.capability_suffices
  have wide : 3 ≤ config.variant.capability.maxBurstSize.toNat := by
    cases config.variant <;> decide
  obtain ⟨plan, planned, rfl⟩ := Request.program_of_buildIn built
  change (Request.zeroFill config.variant.capability destination size
    config.security).plan config.variant.capability .zeroFill =
      .ok plan at planned
  obtain ⟨residue, bytes⟩ := Plan.complete_zeroFill planned bus
  rw [← bytes] at writes apart
  refine ⟨rfl, residue, ?_⟩
  have accepts : ¬ config.driver.Refuses (plan.program (Request.zeroFill
      config.variant.capability destination size config.security)
      buffer.busAddress) := by
    intro refused
    obtain ⟨side, secure⟩ := refused
    exact absurd side (of_decide_eq_false secure)
  obtain ⟨m', all, clears⟩ := Plan.clears planned bus writes
  rw [bytes] at clears
  have runs := Plan.runs_wholly kept ends awake pace idle on exist planned
    accepts code below (Plan.sparesRange_of_apart apart) all
  exact runs.clearsWholly (kept.attached ends awake pace).slice_pos
    (Plan.ticks_zeroFill_lt bus wide planned) clears

-- ========================================================== a short fill

/-- The program that clears 133 bytes from address 64 on, a burst and
five single bytes, to stand at the start of memory. -/
def shortFillProgram : Microprogram where
  code :=
    [0xbc, 2, 0x40, 0, 0, 0, 0xbc, 1, 0xf6, 0xc9, 0x7d, 2, 0x20, 0, 0x0c, 0x38,
      1, 0xbc, 1, 0, 0x49, 0x40, 2, 0x20, 4, 0x0c, 0x38, 1, 0x13, 0]
  busAddress := 0
  nonSecure := false
  plan := ⟨.zeroFill, [⟨.burst, ⟨0x027dc9f6⟩, 128, [⟨1, none⟩]⟩,
    ⟨.single, ⟨0x02404900⟩, 1, [⟨5, none⟩]⟩], 0⟩

/-- A memory that has the program, and something to clear. -/
def shortFillMemory : Memory :=
  ((Memory.zeroed 0 0x100).put 0 shortFillProgram.code).put 0x40 [1, 2, 3]

theorem build_shortFill :
    (Capability.pl330.buildZeroFill 0x40 133 .secure
      ⟨List.replicate 32 0, 0⟩).result = .ok shortFillProgram := by
  decide +kernel

theorem holdsBytes_shortFillMemory :
    shortFillMemory.HoldsBytes shortFillProgram.busAddress.toNat
      shortFillProgram.code := by
  unfold Memory.HoldsBytes
  decide +kernel

/-- The short fill is carried out as a whole. -/
theorem clears_wholly_short_fill :
    shortFillProgram.nonSecure = false ∧ shortFillProgram.residue = 0 ∧
      (DriverConfig.mk .pl330 0x20000000 .secure 100 100).driver.ClearsWholly
        (.new .pl330 0x20000000 shortFillMemory) { thread := .channel 0 } 0
        shortFillProgram 0x40 133 := by
  have behind : ¬ (0x40 : UInt32).toNat <
      shortFillProgram.busAddress.toNat + shortFillProgram.code.length := by
    decide
  have built : ((DriverConfig.mk .pl330 0x20000000 .secure 100
      100).driver.buildZeroFill 0x40 133 ⟨List.replicate 32 0, 0⟩).result =
        .ok shortFillProgram := build_shortFill
  exact clears_wholly ⟨rfl, rfl, rfl⟩ (by decide) rfl (by decide) (by decide)
    rfl (by decide) built (by decide +kernel) holdsBytes_shortFillMemory
    (by decide)
    (fun a _ high inside => behind (Nat.lt_of_le_of_lt inside.1 high))

/-- The program that clears the same bytes for the non-secure side. -/
def nonSecureFillProgram : Microprogram where
  code :=
    [0xbc, 2, 0x40, 0, 0, 0, 0xbc, 1, 0xf6, 0xcb, 0xfd, 2, 0x20, 0, 0x0c, 0x38,
      1, 0xbc, 1, 0, 0x4b, 0xc0, 2, 0x20, 4, 0x0c, 0x38, 1, 0x13, 0]
  busAddress := 0
  nonSecure := true
  plan := ⟨.zeroFill, [⟨.burst, ⟨0x02fdcbf6⟩, 128, [⟨1, none⟩]⟩,
    ⟨.single, ⟨0x02c04b00⟩, 1, [⟨5, none⟩]⟩], 0⟩

theorem build_nonSecureFill :
    (Capability.pl330.buildZeroFill 0x40 133 .nonSecure
      ⟨List.replicate 32 0, 0⟩).result = .ok nonSecureFillProgram := by
  decide +kernel

/-- That both windows exist is not enough: through one that ends with the
address space the start of a fill panics. -/
theorem fill_stopped_at_the_end :
    ¬ ∀ (config : DriverConfig) (e : Emulator) (context : Context)
      (n : UInt8) (destination size : UInt32) (buffer : ProgramBuffer)
      (program : Microprogram),
      e.Kept config.variant.capability config.base →
      config.variant.capability.WindowsExist config.base →
      e.controller.halted = false → 1 ≤ e.stepsPerMs →
      (∀ ch ∈ e.controller.channels, ch.status = .stopped) →
      context.thread = .channel n → n < config.variant.capability.numChannels →
      (config.driver.buildZeroFill destination size buffer).result =
        .ok program →
      e.memory.Holds destination.toNat size.toNat →
      e.memory.HoldsBytes program.busAddress.toNat program.code →
      program.busAddress.toNat + program.code.length ≤ UInt32.size →
      (∀ a, program.busAddress.toNat ≤ a →
        a < program.busAddress.toNat + program.code.length →
        ¬ (destination.toNat ≤ a ∧ a < destination.toNat + size.toNat)) →
      program.nonSecure = decide (config.security = .nonSecure) ∧
        program.residue = 0 ∧
        config.driver.ClearsWholly e context n program destination size := by
  intro promised
  have behind : ¬ (0x40 : UInt32).toNat <
      nonSecureFillProgram.busAddress.toNat +
        nonSecureFillProgram.code.length := by
    decide
  have code : ((Memory.zeroed 0 0x100).put 0
      nonSecureFillProgram.code).HoldsBytes
        nonSecureFillProgram.busAddress.toNat nonSecureFillProgram.code := by
    unfold Memory.HoldsBytes
    decide +kernel
  obtain ⟨-, -, started, e₁, waited, starts, -⟩ := promised
    ⟨.pl330, 0xffffffffffffe000, .nonSecure, 100, 100⟩
    (.new .pl330 0xffffffffffffe000
      ((Memory.zeroed 0 0x100).put 0 nonSecureFillProgram.code))
    { thread := .channel 0 } 0 0x40 133 ⟨List.replicate 32 0, 0⟩
    nonSecureFillProgram ⟨rfl, rfl, rfl⟩ (by decide) rfl (by decide)
    (by decide) rfl (by decide) build_nonSecureFill (by decide +kernel) code
    (by decide)
    (fun a _ high inside => behind (Nat.lt_of_le_of_lt inside.1 high))
  cases starts.symm.trans
    (DriverConfig.attempt_start rfl rfl (by decide) rfl _)

end DmaController
