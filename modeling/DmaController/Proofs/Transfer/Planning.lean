/-
Planning in plain numbers. A request has a plan exactly if it is legal:
its geometry fits the bus, and each side that takes part is aligned and
ends on the bus. Unit sizes and counts are words, and for a legal
request none of them wraps; so a plan's phases together move everything
but the residue.

A phase is described by the size and length its control word was packed
from and by its number of rounds; everything that a run of its program
asks about follows from these.
-/
import DmaController.Proofs.Transfer.Blocks
import DmaController.Proofs.Transfer.Control
import DmaController.Proofs.Transfer.LoopNest

namespace DmaController

open Register (ChannelControl)
open Register.ChannelControl (endianSwap sourceIncrement destinationIncrement)

namespace Request

variable {req : Request} {cap : Capability} {mode : Mode}

-- ============================================================= legality

/-- One side of a transfer is aligned to bursts and ends on the bus. -/
def Fits (req : Request) (address : UInt32) : Prop :=
  2 ^ req.burstSize.toNat ∣ address.toNat ∧
    address.toNat + req.size.toNat ≤ UInt32.size

/-- The requests that have a plan. -/
structure Legal (req : Request) (cap : Capability) (mode : Mode) : Prop where
  size : 0 < req.size.toNat
  burstLength : 1 ≤ req.burstLength.toNat ∧ req.burstLength.toNat ≤ 16
  burstSize : req.burstSize.toNat ≤ cap.maxBurstSize.toNat
  singleBurstSize : req.singleBurstSize.toNat ≤ req.burstSize.toNat
  source : mode = .copy → req.Fits req.source
  destination : req.Fits req.destination
  periph : mode = .copy → req.direction.hasPeriph → req.periph < cap.numPeriph

theorem toNat_one_shiftLeft {size : UInt8} (h : size.toNat ≤ 7) :
    ((1 : UInt32) <<< size.toUInt32).toNat = 2 ^ size.toNat := by
  have small : 2 ^ size.toNat < 2 ^ 32 :=
    Nat.pow_lt_pow_right (by decide) (by omega)
  rw [UInt32.toNat_shiftLeft, UInt8.toNat_toUInt32,
    Nat.mod_eq_of_lt (show size.toNat < 32 by omega)]
  show 1 <<< size.toNat % 2 ^ 32 = _
  rw [Nat.one_shiftLeft, Nat.mod_eq_of_lt small]

theorem below_alignment {address : UInt32} {size : UInt8} (h : size.toNat ≤ 7) :
    (address &&& ((1 : UInt32) <<< size.toUInt32 - 1) != 0) = false ↔
      2 ^ size.toNat ∣ address.toNat := by
  have bit := toNat_one_shiftLeft h
  have one : (1 : UInt32) ≤ (1 : UInt32) <<< size.toUInt32 := by
    rw [UInt32.le_iff_toNat_le, bit]
    exact Nat.two_pow_pos _
  have mask : (address &&& ((1 : UInt32) <<< size.toUInt32 - 1)).toNat =
      address.toNat % 2 ^ size.toNat := by
    rw [UInt32.toNat_and, UInt32.toNat_sub_of_le _ _ one, bit]
    exact Nat.and_two_pow_sub_one_eq_mod ..
  rw [bne_eq_false_iff_eq, ← UInt32.toNat_inj, mask, Nat.dvd_iff_mod_eq_zero]
  rfl

/-- A side passes exactly if it fits. -/
theorem validateSide_eq_ok_iff (h : req.burstSize.toNat ≤ 7) (side : Side)
    (address : UInt32) :
    validateSide side address req.size
      ((1 : UInt32) <<< req.burstSize.toUInt32) = .ok () ↔
      req.Fits address := by
  rw [Fits, ← below_alignment h, validateSide]
  split
  next leaves =>
    refine iff_of_false (by simp) ?_
    intro fits
    obtain ⟨aligned, -⟩ := fits
    cases leaves.symm.trans aligned
  next aligned =>
    split
    next ends =>
      refine iff_of_false (by simp) ?_
      intro fits
      obtain ⟨-, fits⟩ := fits
      omega
    next ends => exact iff_of_true rfl ⟨Bool.eq_false_iff.2 aligned, by omega⟩

/-- A request passes exactly if it is legal. -/
theorem validate_eq_ok_iff (bus : cap.maxBurstSize.toNat ≤ 7) :
    req.validate cap mode = .ok () ↔ req.Legal cap mode := by
  unfold validate
  split
  next none =>
    refine iff_of_false (by simp) ?_
    intro legal
    have size := legal.size
    rw [none] at size
    exact Nat.lt_irrefl 0 size
  next some =>
  split
  next odd =>
    refine iff_of_false (by simp) ?_
    intro legal
    have length := legal.burstLength
    rcases odd with odd | odd <;>
      · have := UInt8.lt_iff_toNat_lt.1 odd
        simp only [maxBurstLength, UInt8.toNat_ofNat] at this
        omega
  next even =>
  split
  next wide =>
    refine iff_of_false (by simp) ?_
    intro legal
    exact Nat.not_lt.2 legal.burstSize (UInt8.lt_iff_toNat_lt.1 wide)
  next narrow =>
  split
  next wide =>
    refine iff_of_false (by simp) ?_
    intro legal
    exact Nat.not_lt.2 legal.singleBurstSize (UInt8.lt_iff_toNat_lt.1 wide)
  next narrower =>
  -- the geometry is legal; what is left are the sides and the peripheral
  have geometry : req.Legal cap mode ↔
      (mode = .copy → req.Fits req.source) ∧ req.Fits req.destination ∧
        (mode = .copy → req.direction.hasPeriph →
          req.periph < cap.numPeriph) := by
    constructor
    · intro legal
      exact ⟨legal.source, legal.destination, legal.periph⟩
    intro sides
    obtain ⟨source, destination, periph⟩ := sides
    refine ⟨?_, ?_, ?_, ?_, source, destination, periph⟩
    · exact Nat.pos_of_ne_zero fun zero => some (UInt32.toNat_inj.1 zero)
    · rw [not_or, UInt8.not_lt, UInt8.not_lt, UInt8.le_iff_toNat_le,
        UInt8.le_iff_toNat_le] at even
      exact even
    · exact UInt8.le_iff_toNat_le.1 (UInt8.not_lt.1 narrow)
    · exact UInt8.le_iff_toNat_le.1 (UInt8.not_lt.1 narrower)
  have small : req.burstSize.toNat ≤ 7 :=
    Nat.le_trans (UInt8.le_iff_toNat_le.1 (UInt8.not_lt.1 narrow)) bus
  rw [geometry, ← validateSide_eq_ok_iff small .source,
    ← validateSide_eq_ok_iff small .destination]
  have sides : ∀ first second : Except PlanError Unit,
      (do first; second) = .ok () ↔ first = .ok () ∧ second = .ok () := by
    intro first second
    cases first with
    | ok => exact (and_iff_right rfl).symm
    | error e =>
      refine iff_of_false ?_ (by simp)
      intro ok
      cases ok
  have exists_iff :
      (if mode = .copy ∧ req.direction.hasPeriph ∧
          cap.numPeriph ≤ req.periph then
        throw (.unknownPeriph req.periph
          (if cap.numPeriph = 0 then 0 else cap.numPeriph - 1))
      else pure () : Except PlanError Unit) = .ok () ↔
      (mode = .copy → req.direction.hasPeriph →
        req.periph < cap.numPeriph) := by
    split
    next unknown =>
      refine iff_of_false (by intro ok; cases ok) ?_
      intro known
      exact UInt8.not_lt.2 unknown.2.2 (known unknown.1 unknown.2.1)
    next known =>
      refine iff_of_true rfl ?_
      intro copy periph
      exact UInt8.not_le.1 fun le => known ⟨copy, periph, le⟩
  cases mode with
  | zeroFill =>
      rw [← exists_iff, ← sides]
      exact (and_iff_right (by simp)).symm
  | copy =>
      rw [← exists_iff, ← sides]
      refine (sides _ _).trans (and_congr_left fun _ => ?_)
      exact ⟨fun h _ => h, fun h => h rfl⟩

/-- The phases of a plan for the request. -/
def phases (req : Request) (mode : Mode) : List Phase :=
  (req.burstPhase? mode).toList ++ (req.singlePhase? mode).toList

/-- A plan is made exactly of a legal request. -/
theorem plan_eq_ok_iff (bus : cap.maxBurstSize.toNat ≤ 7) {plan : Plan} :
    req.plan cap mode = .ok plan ↔
      req.Legal cap mode ∧ plan = ⟨mode, req.phases mode, req.residue⟩ := by
  rw [← validate_eq_ok_iff bus, Request.plan]
  cases req.validate cap mode with
  | error e =>
    refine iff_of_false ?_ (by simp)
    intro ok
    cases ok
  | ok =>
    constructor
    · intro planned
      exact ⟨rfl, (Except.ok.inj planned).symm⟩
    · intro made
      obtain ⟨-, rfl⟩ := made
      rfl

-- ============================================================== numbers

namespace Legal

theorem burstSize_le (bus : cap.maxBurstSize.toNat ≤ 7)
    (h : req.Legal cap mode) : req.burstSize.toNat ≤ 7 :=
  Nat.le_trans h.burstSize bus

theorem singleBurstSize_le (bus : cap.maxBurstSize.toNat ≤ 7)
    (h : req.Legal cap mode) : req.singleBurstSize.toNat ≤ 7 :=
  Nat.le_trans h.singleBurstSize (h.burstSize_le bus)

/-- A burst has at most 16 beats of 128 bytes. -/
theorem burst_le (bus : cap.maxBurstSize.toNat ≤ 7)
    (h : req.Legal cap mode) :
    2 ^ req.burstSize.toNat * req.burstLength.toNat ≤ 2048 :=
  Nat.mul_le_mul (Nat.pow_le_pow_right (by decide) (h.burstSize_le bus))
    h.burstLength.2

theorem toNat_burstBytes (bus : cap.maxBurstSize.toNat ≤ 7)
    (h : req.Legal cap mode) :
    req.burstBytes.toNat = 2 ^ req.burstSize.toNat * req.burstLength.toNat := by
  rw [burstBytes, UInt32.toNat_mul, toNat_one_shiftLeft (h.burstSize_le bus),
    UInt8.toNat_toUInt32]
  exact Nat.mod_eq_of_lt (Nat.lt_of_le_of_lt (h.burst_le bus) (by decide))

theorem toNat_singleBytes (bus : cap.maxBurstSize.toNat ≤ 7)
    (h : req.Legal cap mode) :
    req.singleBytes.toNat = 2 ^ req.singleBurstSize.toNat :=
  toNat_one_shiftLeft (h.singleBurstSize_le bus)

end Legal

/-- The bytes behind the bursts are single beats and the residue. -/
theorem bytes_accounted (req : Request) :
    req.bursts.toNat * req.burstBytes.toNat +
        req.singles.toNat * req.singleBytes.toNat + req.residue.toNat =
      req.size.toNat := by
  have bursts := Nat.div_add_mod req.size.toNat req.burstBytes.toNat
  have singles := Nat.div_add_mod req.tail.toNat req.singleBytes.toNat
  simp only [Request.bursts, Request.singles, residue, UInt32.toNat_div,
    UInt32.toNat_mod, tail] at bursts singles ⊢
  rw [Nat.mul_comm] at bursts singles
  omega

end Request

-- =============================================================== phases

/-- A control word asks for units of a stride, swapped in a given
way. -/
structure Register.ChannelControl.Steers (control : ChannelControl)
    (stride : Stride) (swap : Swap) : Prop where
  source : control.sourceBurstBytes = stride.length
  destination : control.destinationBurstBytes = stride.length
  sourceAdvances : sourceIncrement.isSet control.word = stride.source
  destinationAdvances : destinationIncrement.isSet control.word =
    stride.destination
  swap : endianSwap.get control.word = swap.code

/-- What a phase brings along when its program runs: a control word for
its stride and its security, rounds that the counters can count, and
units that fit the bus and a buffer of sixteen lines. -/
structure Phase.Ready (phase : Phase) (req : Request) (cap : Capability)
    (mode : Mode) : Prop where
  steers : phase.control.Steers (phase.stride (req.increments mode)) req.swap
  security : phase.control.isNonSecureBoth = decide (req.security = .nonSecure)
  countable : ∀ nest ∈ phase.loops, nest.Countable
  unit_pos : 0 < phase.unit.toNat
  unit_le : phase.unit.toNat ≤ 16 * 2 ^ cap.maxBurstSize.toNat

namespace Request

variable {req : Request} {cap : Capability} {mode : Mode}

/-- A phase that runs under the control word of its unit. -/
theorem phase_ready (bus : cap.maxBurstSize.toNat ≤ 7) {kind : PhaseKind}
    {size length : UInt8} {unit : UInt32}
    (hs : size.toNat ≤ cap.maxBurstSize.toNat)
    (hl : 1 ≤ length.toNat ∧ length.toNat ≤ 16)
    (hu : unit.toNat = 2 ^ size.toNat * length.toNat) (count : Nat) :
    Phase.Ready ⟨kind, req.control mode size length, unit, splitLoops count⟩
      req cap mode := by
  have small : size ≤ 7 := UInt8.le_iff_toNat_le.2 (Nat.le_trans hs bus)
  have low : 1 ≤ length := UInt8.le_iff_toNat_le.2 hl.1
  have high : length ≤ 16 := UInt8.le_iff_toNat_le.2 hl.2
  refine ⟨⟨?_, ?_, ?_, ?_, ?_⟩, ?_, countable_splitLoops count, ?_, ?_⟩
  · exact (req.sourceBurstBytes_control mode small low high).trans hu.symm
  · exact (req.destinationBurstBytes_control mode small low high).trans hu.symm
  · exact req.sourceIncrement_control mode size length
  · exact req.destinationIncrement_control mode size length
  · exact req.endianSwap_control mode size length
  · exact req.isNonSecureBoth_control mode size length
  · rw [hu]
    exact Nat.mul_pos (Nat.two_pow_pos _) hl.1
  · rw [hu, Nat.mul_comm]
    exact Nat.mul_le_mul hl.2 (Nat.pow_le_pow_right (by decide) hs)

/-- A phase of a plan is that of the bursts or that of the single
beats. -/
theorem eq_of_mem_phases {phase : Phase} (h : phase ∈ req.phases mode) :
    (req.bursts ≠ 0 ∧ phase =
        ⟨.burst, req.control mode req.burstSize req.burstLength,
          req.burstBytes, splitLoops req.bursts.toNat⟩) ∨
      (req.singles ≠ 0 ∧ phase =
        ⟨.single, req.control mode req.singleBurstSize 1, req.singleBytes,
          splitLoops req.singles.toNat⟩) := by
  rcases List.mem_append.1 h with h | h
  · unfold burstPhase? at h
    split at h
    next => cases h
    next some => exact Or.inl ⟨some, List.mem_singleton.1 h⟩
  · unfold singlePhase? at h
    split at h
    next => cases h
    next some => exact Or.inr ⟨some, List.mem_singleton.1 h⟩

/-- Every phase of a plan is ready to run. -/
theorem Legal.phase_ready (bus : cap.maxBurstSize.toNat ≤ 7)
    (legal : req.Legal cap mode) :
    ∀ phase ∈ req.phases mode, phase.Ready req cap mode := by
  intro phase mem
  rcases eq_of_mem_phases mem with ⟨-, rfl⟩ | ⟨-, rfl⟩
  · exact Request.phase_ready bus legal.burstSize legal.burstLength
      (legal.toNat_burstBytes bus) _
  · refine Request.phase_ready bus
      (Nat.le_trans legal.singleBurstSize legal.burstSize) (by decide) ?_ _
    rw [legal.toNat_singleBytes bus]
    exact (Nat.mul_one _).symm

theorem bytes_phases (req : Request) (mode : Mode) :
    (req.phases mode).foldr (fun phase rest => phase.bytes + rest) 0 =
      req.bursts.toNat * req.burstBytes.toNat +
        req.singles.toNat * req.singleBytes.toNat := by
  have bytes (kind : PhaseKind) (control : ChannelControl)
      (unit : UInt32) (count : Nat) :
      Phase.bytes ⟨kind, control, unit, splitLoops count⟩ =
        count * unit.toNat := by
    rw [Phase.bytes_eq, Phase.rounds, sum_iterations_splitLoops]
  unfold phases burstPhase? singlePhase?
  split
  next noBursts =>
    split
    next noSingles => simp [noBursts, noSingles]
    next => simp [noBursts, bytes]
  next =>
    split
    next noSingles => simp [noSingles, bytes]
    next => simp [bytes]

end Request

namespace Plan

variable {req : Request} {cap : Capability} {mode : Mode} {plan : Plan}

/-- A plan is in the mode it was asked for, and its phases are ready. -/
theorem ready_of_plan (bus : cap.maxBurstSize.toNat ≤ 7)
    (h : req.plan cap mode = .ok plan) :
    plan.mode = mode ∧ req.Legal cap mode ∧
      ∀ phase ∈ plan.phases, phase.Ready req cap mode := by
  obtain ⟨legal, rfl⟩ := (Request.plan_eq_ok_iff bus).1 h
  exact ⟨rfl, legal, legal.phase_ready bus⟩

/-- A plan moves all bytes but the residue. -/
theorem bytes_add_residue (bus : cap.maxBurstSize.toNat ≤ 7)
    (h : req.plan cap mode = .ok plan) :
    plan.bytes + plan.residue.toNat = req.size.toNat := by
  obtain ⟨-, rfl⟩ := (Request.plan_eq_ok_iff bus).1 h
  rw [bytes, req.bytes_phases mode]
  exact req.bytes_accounted

/-- The blocks of a plan lie within the two ranges it moves between. -/
theorem within_of_mem {b : Block} (h : b ∈ plan.blocks req) :
    b.Within (req.origin plan.mode) req.destination.toNat plan.bytes :=
  Phase.within_of_mem h

/-- The blocks of a plan spare what its destination range does not
reach. -/
theorem sparesRange_of_apart {first length : Nat}
    (apart : ∀ a, first ≤ a → a < first + length →
      ¬ (req.destination.toNat ≤ a ∧
        a < req.destination.toNat + plan.bytes)) :
    ∀ b ∈ plan.blocks req, b.SparesRange first length := by
  intro b mem a low high inside
  obtain ⟨start, stop⟩ := (within_of_mem mem).destination
  exact apart a low high ⟨by omega, by omega⟩

/-- A block of phases that have units has bytes. -/
theorem length_pos_of_mem_blocksFrom {advance : Bool × Bool}
    {phases : List Phase} (units : ∀ phase ∈ phases, 0 < phase.unit.toNat)
    {source : Option Nat} {destination : Nat} {b : Block}
    (h : b ∈ Phase.blocksFrom advance phases source destination) :
    0 < b.length := by
  induction phases generalizing source destination with
  | nil => cases h
  | cons phase phases ih =>
      obtain ⟨here, later⟩ := List.forall_mem_cons.1 units
      rcases List.mem_append.1 h with h | h
      · obtain ⟨k, -, rfl⟩ := (Stride.mem_blocks ..).1 h
        exact here
      · exact ih later h

/-- The blocks of a plan lie on the bus. -/
theorem onBus_of_mem (bus : cap.maxBurstSize.toNat ≤ 7)
    (h : req.plan cap mode = .ok plan) {b : Block}
    (hb : b ∈ plan.blocks req) : b.OnBus := by
  have bytes := bytes_add_residue bus h
  have within := within_of_mem hb
  obtain ⟨legal, rfl⟩ := (Request.plan_eq_ok_iff bus).1 h
  refine ⟨?_, ?_, ?_⟩
  · exact length_pos_of_mem_blocksFrom (fun phase mem =>
      (legal.phase_ready bus phase mem).unit_pos) hb
  · intro s hs
    cases mode with
    | zeroFill =>
        have := within.reads
        rw [Option.isSome_iff_exists.2 ⟨s, hs⟩] at this
        cases this
    | copy =>
        have range := (within.source s hs _ rfl).2
        have fits := (legal.source rfl).2
        omega
  · have range := within.destination.2
    have fits := legal.destination.2
    omega

/-- Copies read, zero fills do not. -/
theorem isSome_source_of_mem {b : Block} (hb : b ∈ plan.blocks req) :
    b.source.isSome = (plan.mode == .copy) := by
  rw [(within_of_mem hb).reads]
  cases plan.mode <;> rfl

end Plan

end DmaController
