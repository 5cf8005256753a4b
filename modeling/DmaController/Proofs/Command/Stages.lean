/-
The stages of a run of a command. The emulator a command reads is fresh
but for what is written into its memory, and so it stays until a program
starts: the probe finds the controller the driver is set up for, the
bytes to copy or to clear are written, and the program is put into its
slot.

Each stage is an equation here. The driver is set up and finds its
controller if its window can be addressed; otherwise the command panics
there. A stage that can fail succeeds if what it writes or compares lies
in memory; that the slot of a program does is part of its choice
(`slot_within`).
-/
import DmaController.Command.Run
import DmaController.Proofs.Driver.Probe
import DmaController.Proofs.Driver.WholeRun

namespace DmaController.Command

open Bus (Emulator)

/-- The emulator of a configuration after reset, on some memory. -/
def fresh (config : DriverConfig) (m : Memory) : Emulator :=
  .new config.variant.capability config.base m

variable {config : DriverConfig} {m : Memory} {e : Emulator}
  {program : Microprogram}

theorem kept_fresh (config : DriverConfig) (m : Memory) :
    (fresh config m).Kept config.variant.capability config.base :=
  ⟨rfl, rfl, List.length_replicate⟩

theorem stopped_fresh (config : DriverConfig) (m : Memory) :
    ∀ ch ∈ (fresh config m).controller.channels, ch.status = .stopped := by
  intro ch mem
  rw [List.eq_of_mem_replicate mem]

theorem stepsPerMs_fresh (config : DriverConfig) (m : Memory) :
    (fresh config m).stepsPerMs = 1000 := rfl

theorem pace_fresh (config : DriverConfig) (m : Memory) :
    1 ≤ (fresh config m).stepsPerMs := by
  rw [stepsPerMs_fresh]
  decide

/-- A thousand ticks pass in a millisecond. -/
theorem slice_fresh (config : DriverConfig) (m : Memory) :
    (fresh config m).slice 1 = 1000 := by
  rw [Emulator.slice, stepsPerMs_fresh]
  decide

-- ============================================================ preparing

/-- Stages behind each other succeed if each of them does. -/
theorem bind_eq_ok {α β : Type} {stage : Except Failure α}
    {next : α → Except Failure β} {b : β} :
    stage >>= next = .ok b ↔ ∃ a, stage = .ok a ∧ next a = .ok b := by
  cases stage with
  | error cause => exact iff_of_false nofun nofun
  | ok a =>
      refine ⟨fun later => ⟨a, rfl, later⟩, fun both => ?_⟩
      obtain ⟨_, same, later⟩ := both
      cases same
      exact later

/-- What the emulator of a command line is: fresh, on memory from address
zero on that a 32-bit bus reaches. -/
theorem fresh_of_emulator {text : String} (h : emulator config text = .ok e) :
    ∃ size ≤ UInt32.size, e = fresh config (.zeroed 0 size) := by
  obtain ⟨size, -, made⟩ := bind_eq_ok.1 h
  simp only at made
  split at made
  next => cases made
  next within => exact ⟨_, Nat.not_lt.1 within, (Except.ok.inj made).symm⟩

theorem setUp_ok (ends : config.Addressable) :
    setUp config = .ok config.driver := by
  have room := ends.2
  unfold Capability.WindowEnds at room
  have starts : Word.add64? config.base
      (config.variant.capability.window config.security) =
        some config.driver.registers := if_pos (by omega)
  rw [setUp, DriverConfig.driver?, starts]
  rfl

theorem converse_probe (ends : config.Addressable) (m : Memory) :
    ∃ info, converse config.driver config.driver.probe (fresh config m) =
      .ok (info, fresh config m) := by
  obtain ⟨info, probes⟩ := DriverConfig.probes
    (DriverConfig.answers (e := fresh config m) rfl rfl ends) rfl
  exact ⟨info, by rw [converse, probes]⟩

theorem covers_of_holds {address : UInt32} {length : Nat} (pos : 0 < length)
    (held : m.Holds address.toNat length) :
    m.Covers address.toUInt64 length :=
  (Memory.covers_iff_holds pos).2 (UInt32.toNat_toUInt64 address ▸ held)

theorem putTable_fresh {address : UInt32} {length : Nat} {value : Nat → UInt8}
    (covers : m.Covers address.toUInt64 length) :
    putTable (fresh config m) address length value =
      .ok (fresh config (m.putTable address.toUInt64 length value)) := by
  unfold putTable
  rw [if_pos (show (fresh config m).memory.Covers _ _ from covers)]
  rfl

theorem putProgram_fresh
    (covers : m.Covers program.busAddress.toUInt64 program.code.length) :
    putProgram (fresh config m) program =
      .ok (fresh config (m.put program.busAddress.toUInt64 program.code)) := by
  have written : m.write program.busAddress.toUInt64 program.code =
      .ok (m.put program.busAddress.toUInt64 program.code) := if_pos covers
  simp only [putProgram, fresh, Emulator.new, written]

-- ================================================================ slots

/-- Two ranges of bytes have none in common. -/
def RangesApart (first length other count : Nat) : Prop :=
  first + length ≤ other ∨ other + count ≤ first

instance (first length other count : Nat) :
    Decidable (RangesApart first length other count) :=
  inferInstanceAs (Decidable (_ ∨ _))

/-- A place in one of two ranges that are apart is not in the other. -/
theorem RangesApart.not_inside {first length other count a : Nat}
    (h : RangesApart first length other count)
    (inside : first ≤ a ∧ a < first + length) :
    ¬ (other ≤ a ∧ a < other + count) := by
  unfold RangesApart at h
  omega

/-- Where the slot of a program is depends on where memory is. -/
theorem programAddress_congr {m' : Memory} (place : m.SamePlace m')
    (length : Nat) : programAddress m' length = programAddress m length := by
  simp only [programAddress, place.1, place.2]

/-- The slot of a program lies in memory, and below the end of the
bus. -/
theorem slot_within {length : Nat} {slot : UInt32}
    (placed : programAddress m length = .ok slot) (pos : 0 < length)
    (base : m.base = 0) (small : m.size ≤ UInt32.size) :
    m.Covers slot.toUInt64 length ∧ slot.toNat + length ≤ UInt32.size := by
  have zero : m.base.toNat = 0 := by
    rw [base]
    rfl
  unfold programAddress at placed
  simp only [zero, Nat.zero_add] at placed
  split at placed
  next => cases placed
  next room =>
    have before := Nat.div_mul_le_self (m.size - length) programAlign
    cases Except.ok.inj placed
    refine ⟨⟨?_, ?_⟩, ?_⟩
    · rw [base]
      exact UInt64.zero_le
    · rw [zero, UInt32.toNat_toUInt64, UInt32.toNat_ofNat_of_lt' (by omega)]
      omega
    · rw [UInt32.toNat_ofNat_of_lt' (by omega)]
      omega

/-- A program has an end. -/
theorem totalLength_pos (plan : Plan) (req : Request) :
    0 < Instruction.totalLength (plan.instructions req) := by
  have last : 0 < Instruction.totalLength plan.mode.epilogue := by
    cases plan.mode <;> decide
  rw [Plan.instructions, Instruction.totalLength_append]
  exact Nat.add_pos_right _ last

/-- The code of a program fits into its slot. -/
theorem code_within {req : Request} {plan : Plan} {slot : UInt32}
    (placed : programAddress m
      (Instruction.totalLength (plan.instructions req)) = .ok slot)
    (base : m.base = 0) (small : m.size ≤ UInt32.size) :
    m.Covers slot.toUInt64 (plan.program req slot).code.length ∧
      slot.toNat + (plan.program req slot).code.length ≤ UInt32.size := by
  rw [Plan.program, Instruction.length_assemble]
  exact slot_within placed (totalLength_pos plan req) base small

-- ============================================================ comparing

theorem firstDifference_eq_none {offset first length : Nat}
    {expected : Nat → UInt8}
    (same : ∀ i < length, m.get (offset + (first + i)) = expected (first + i)) :
    firstDifference m offset expected first length = none := by
  induction length generalizing first with
  | zero => rfl
  | succ length ih =>
      have here := same 0 (Nat.succ_pos length)
      rw [Nat.add_zero] at here
      rw [firstDifference, if_pos here]
      refine ih fun i hi => ?_
      rw [Nat.add_assoc, Nat.add_comm 1]
      exact same (i + 1) (Nat.succ_lt_succ hi)

/-- A range that is as expected passes. -/
theorem verify_ok {address : UInt32} {length : Nat} {expected : Nat → UInt8}
    (covers : m.Covers address.toUInt64 length)
    (same : ∀ i < length, m.byte? (address.toNat + i) = some (expected i)) :
    verify m address length expected = .ok () := by
  have place : m.offsetOf address.toUInt64 = address.toNat - m.base.toNat := by
    rw [Memory.offsetOf, UInt32.toNat_toUInt64]
  have low := UInt64.le_iff_toNat_le.1 covers.1
  rw [UInt32.toNat_toUInt64] at low
  have equal : firstDifference m (m.offsetOf address.toUInt64) expected 0
      length = none := by
    refine firstDifference_eq_none fun i hi => ?_
    have there := same i hi
    unfold Memory.byte? at there
    split at there
    next =>
      rw [place, Nat.zero_add, ← Nat.sub_add_comm low]
      exact Option.some.inj there
    next => cases there
  rw [verify, if_pos covers, equal]

-- ============================================================== running

/-- A program is put into memory and started on a channel, and its code
stands where it was put for as long as the channels run. -/
def CodeStands (driver : Driver) (channel : UInt8) (program : Microprogram)
    (e : Emulator) : Prop :=
  ∃ placed context started begun,
    putProgram e program = .ok placed ∧
    driver.context channel = .ok context ∧
    (driver.start context program).attempt (driver.on Emulator.platform)
      placed = (some (.ok started), begun) ∧
    ∀ k, (begun.run k).memory.HoldsBytes program.busAddress.toNat program.code

/-- The program of a plan whose units all lie in memory is put into its
slot, started and waited for, if the slot is apart from what the program
writes and the wait outlasts it. -/
theorem runProgram_ok {req : Request} {mode : Mode} {plan : Plan}
    {slot : UInt32} {channel : UInt8} {timeoutMs : UInt32} {m' : Memory}
    (ends : config.Addressable)
    (exist : channel < config.variant.capability.numChannels)
    (planned : req.plan config.variant.capability mode = .ok plan)
    (allowed : req.security = .nonSecure ∨ config.security = .secure)
    (base : m.base = 0) (small : m.size ≤ UInt32.size)
    (placed : programAddress m
      (Instruction.totalLength (plan.instructions req)) = .ok slot)
    (unwritten : RangesApart slot.toNat (plan.program req slot).length
      req.destination.toNat plan.bytes)
    (all : Block.moveAll req.swap (plan.blocks req)
      (m.put slot.toUInt64 (plan.program req slot).code) = (m', none))
    (patient : plan.ticks req < timeoutMs.toNat * 1000) :
    CodeStands config.driver channel (plan.program req slot)
        (fresh config m) ∧
      ∃ after, runProgram config.driver channel (plan.program req slot)
          timeoutMs (fresh config m) = .ok after ∧
        after.memory = m' := by
  have accepts : ¬ config.driver.Refuses (plan.program req slot) :=
    Plan.not_refuses allowed
  obtain ⟨covers, below⟩ := code_within placed base small
  have spared : ∀ b ∈ plan.blocks req,
      b.SparesRange slot.toNat (plan.program req slot).code.length :=
    Plan.sparesRange_of_apart fun a low high =>
      unwritten.not_inside ⟨low, high⟩
  obtain ⟨loaded, put⟩ :
      ∃ loaded, m.put slot.toUInt64 (plan.program req slot).code = loaded :=
    ⟨_, rfl⟩
  have puts : putProgram (fresh config m) (plan.program req slot) =
      .ok (fresh config loaded) :=
    put ▸ putProgram_fresh covers
  have code : loaded.HoldsBytes slot.toNat (plan.program req slot).code := by
    have written := Memory.holdsBytes_put covers
    rwa [put, UInt32.toNat_toUInt64] at written
  rw [put] at all
  have context : config.driver.context channel =
      .ok { thread := .channel channel } := if_neg (UInt8.not_le.2 exist)
  obtain ⟨started, begun, starts, stands, waits⟩ :=
    Plan.runs_wholly (e := fresh config loaded) (kept_fresh config _) ends rfl
      (pace_fresh config _) (stopped_fresh config _)
      (show Context.thread { thread := .channel channel } = _ from rfl) exist
      planned accepts code below spared all
  rw [slice_fresh] at waits
  obtain ⟨ended, k, finishes, -, memory⟩ := waits (.millis timeoutMs) patient
  have talk : converse config.driver (startAndFinish config.driver
      { thread := .channel channel } (plan.program req slot) timeoutMs)
      (fresh config loaded) = .ok (ended, begun.run k) := by
    rw [converse, startAndFinish, Bus.Dialogue.attempt_bind_ok starts, finishes]
  refine ⟨⟨_, _, started, begun, puts, context, starts, stands⟩,
    begun.run k, ?_, memory⟩
  simp only [runProgram, puts, context, Except.mapError, talk, bind,
    Except.bind, pure, Except.pure]

end DmaController.Command
