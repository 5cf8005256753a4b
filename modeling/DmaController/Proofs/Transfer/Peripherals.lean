/-
Transfers with a peripheral on one side. The peripheral's address stands,
so a transfer to it is not seen in memory but in what is written there
one unit after the other: the units of the source in order, cut into
bursts and then into single beats (`Request.Delivers`). A transfer from
it finds the same unit again and again, which its destination then
repeats (`Request.Collects`).

Both follow from the units alone, which move bytes that stood there from
the start (`Block.journal_of_apart`).
-/
import DmaController.Proofs.Transfer.Reach

namespace DmaController

namespace Request

/-- What was written are units at the destination, bursts first and then
single beats, and together they are the bytes that stand at the
source. -/
def Delivers (req : Request) (m : Memory) (moves : List DataMove) : Prop :=
  ∃ units : List (List UInt8),
    moves.filterMap DataMove.written? =
      units.map (fun unit => (req.destination, unit)) ∧
    units.map List.length =
      List.replicate req.bursts.toNat req.burstBytes.toNat ++
        List.replicate req.singles.toNat req.singleBytes.toNat ∧
    m.HoldsBytes req.source.toNat units.flatten

/-- The destination repeats what stands at the source, by bursts and then
by single beats, and nothing else changed. -/
structure Collects (req : Request) (m m' : Memory) : Prop where
  bursts : ∀ i < req.bursts.toNat * req.burstBytes.toNat,
    m'.byte? (req.destination.toNat + i) =
      m.byte? (req.source.toNat + i % req.burstBytes.toNat)
  singles : ∀ i < req.singles.toNat * req.singleBytes.toNat,
    m'.byte? (req.destination.toNat +
        (req.bursts.toNat * req.burstBytes.toNat + i)) =
      m.byte? (req.source.toNat + i % req.singleBytes.toNat)
  frame : ∀ a, ¬ (req.destination.toNat ≤ a ∧
      a < req.destination.toNat +
        (req.bursts.toNat * req.burstBytes.toNat +
          req.singles.toNat * req.singleBytes.toNat)) →
    m'.byte? a = m.byte? a

end Request

-- =============================================================== units

namespace Stride

variable {stride : Stride} {m : Memory} {destination count : Nat}

theorem map_length_blocks (stride : Stride) (source : Option Nat)
    (destination count : Nat) :
    (stride.blocks source destination count).map Block.length =
      List.replicate count stride.length := by
  induction count generalizing source destination with
  | zero => rfl
  | succ count ih => rw [blocks, List.map_cons, ih, List.replicate_succ]

/-- Units of an advancing source stand behind each other. -/
theorem holdsBytes_units (advances : stride.source = true) {source : Nat}
    (stays : ∀ b ∈ stride.blocks (some source) destination count, b.Stays m) :
    m.HoldsBytes source
      ((stride.blocks (some source) destination count).map
        (Block.unit m)).flatten := by
  induction count generalizing source destination with
  | zero => exact nofun
  | succ count ih =>
      rw [blocks] at stays ⊢
      obtain ⟨stays₁, stays₂⟩ := List.forall_mem_cons.1 stays
      have next : stride.sourceAfter (some source) 1 =
          some (source + stride.length) := by
        simp [sourceAfter, advances]
      rw [next] at stays₂ ⊢
      rw [List.map_cons, List.flatten_cons]
      refine Memory.holdsBytes_append.2 ⟨fun i hi => ?_, ?_⟩
      · rw [Block.length_unit] at hi
        exact (Memory.getElem?_load (stays₁.1 source rfl) hi).symm
      · rw [Block.length_unit]
        exact ih stays₂

end Stride

namespace Phase

variable {advance : Bool × Bool} {phases : List Phase} {m : Memory}

theorem map_length_blocks (advance : Bool × Bool) (phases : List Phase)
    (source : Option Nat) (destination : Nat) :
    (blocksFrom advance phases source destination).map Block.length =
      phases.flatMap fun phase =>
        List.replicate phase.rounds phase.unit.toNat := by
  induction phases generalizing source destination with
  | nil => rfl
  | cons phase phases ih =>
      rw [blocksFrom, List.map_append, Stride.map_length_blocks, ih]
      rfl

theorem holdsBytes_units (advances : advance.1 = true) {source : Nat}
    {destination : Nat}
    (stays : ∀ b ∈ blocksFrom advance phases (some source) destination,
      b.Stays m) :
    m.HoldsBytes source
      ((blocksFrom advance phases (some source) destination).map
        (Block.unit m)).flatten := by
  induction phases generalizing source destination with
  | nil => exact nofun
  | cons phase phases ih =>
      rw [blocksFrom, sourceAfter_rounds, if_pos advances] at stays ⊢
      obtain ⟨stays₁, stays₂⟩ := List.forall_mem_append.1 stays
      have moves : (phase.stride advance).source = true := advances
      rw [List.map_append, List.flatten_append]
      refine Memory.holdsBytes_append.2
        ⟨Stride.holdsBytes_units moves stays₁, ?_⟩
      have length : ((((phase.stride advance).blocks (some source) destination
          phase.rounds).map (Block.unit m)).flatten).length = phase.bytes := by
        rw [List.length_flatten, List.map_map, phase.bytes_eq]
        have units : List.length ∘ Block.unit m = Block.length :=
          funext (Block.length_unit m)
        rw [units, Stride.map_length_blocks, List.sum_replicate_nat]
        rfl
      rw [length]
      exact ih stays₂

end Phase

-- =============================================================== phases

namespace Request

variable {req : Request} {mode : Mode}

/-- The units of a plan's phases. -/
theorem replicate_phases (req : Request) (mode : Mode) :
    ((req.phases mode).flatMap fun phase =>
        List.replicate phase.rounds phase.unit.toNat) =
      List.replicate req.bursts.toNat req.burstBytes.toNat ++
        List.replicate req.singles.toNat req.singleBytes.toNat := by
  unfold phases burstPhase? singlePhase?
  split
  next noBursts =>
    split
    next noSingles => simp [noBursts, noSingles]
    next => simp [noBursts, Phase.rounds, sum_iterations_splitLoops]
  next =>
    split
    next noSingles =>
      simp [noSingles, Phase.rounds, sum_iterations_splitLoops]
    next => simp [Phase.rounds, sum_iterations_splitLoops]

end Request

namespace Plan

variable {req : Request} {cap : Capability} {plan : Plan} {m : Memory}

/-- A plan towards a peripheral delivers what stands at the source. -/
theorem delivers (planned : req.plan cap .copy = .ok plan)
    (bus : cap.maxBurstSize.toNat ≤ 7)
    (direction : req.direction = .memoryToPeriph)
    (stays : ∀ b ∈ plan.blocks req, b.Stays m)
    (apart : Block.Apart (plan.blocks req)) :
    req.Delivers m (Block.journal .none (plan.blocks req) m) := by
  have onBus : ∀ b ∈ plan.blocks req, b.OnBus :=
    fun b mem => onBus_of_mem bus planned mem
  obtain ⟨mode, -, -⟩ := ready_of_plan bus planned
  have reads : ∀ b ∈ plan.blocks req, b.source.isSome := by
    intro b mem
    rw [isSome_source_of_mem mem, mode]
    rfl
  have advances : req.increments .copy = (true, false) := by
    rw [Request.increments, direction]
  refine ⟨(plan.blocks req).map (Block.unit m), ?_, ?_, ?_⟩
  · rw [Block.journal_of_apart onBus stays apart,
      Block.written_dataMoves reads, List.map_map]
    refine List.map_congr_left fun b mem => ?_
    obtain ⟨-, stands, -⟩ := Phase.stands_of_mem mem
    rw [stands (by rw [mode, advances])]
    exact congrArg (·, b.unit m) UInt32.ofNat_toNat
  · rw [List.map_map, ← req.replicate_phases .copy,
      ← phases_of_plan planned bus]
    exact (congrArg (List.map · (plan.blocks req))
      (funext (Block.length_unit m))).trans (Phase.map_length_blocks ..)
  · unfold blocks at stays ⊢
    rw [mode] at stays ⊢
    exact Phase.holdsBytes_units (by rw [advances]) stays

/-- A plan from a peripheral collects what it finds there. -/
theorem collects (planned : req.plan cap .copy = .ok plan)
    (bus : cap.maxBurstSize.toNat ≤ 7)
    (direction : req.direction = .periphToMemory) (plain : req.swap = .none)
    (stays : ∀ b ∈ plan.blocks req, b.Stays m)
    (apart : Block.Apart (plan.blocks req)) :
    req.Collects m ((plan.blocks req).foldl (Block.moved req.swap) m) := by
  have advances : req.increments .copy = (false, true) := by
    rw [Request.increments, direction]
  have drawn := draws planned bus (by rw [advances]) stays apart
  rw [bytes_eq planned bus, phases_of_plan planned bus, advances, plain]
    at drawn
  -- a standing source gives the same unit at every turn
  have again (length i : Nat) (inside : i % length < length) :
      Stride.origin ⟨length, false, true⟩ .none req.source.toNat i =
        req.source.toNat + i % length := by
    have place := mirror_of_dvd (Nat.one_dvd length) inside
    rw [Nat.div_one, Nat.mul_one, Nat.mod_one] at place
    exact congrArg (req.source.toNat + 0 + ·) place
  have some_unit {count length i : Nat} (inside : i < count * length) :
      i % length < length :=
    Nat.mod_lt i (Nat.pos_of_ne_zero fun zero => by simp [zero] at inside)
  rw [plain]
  refine ⟨fun i inside => ?_, fun i inside => ?_, fun a outside => ?_⟩
  · rw [drawn, if_pos (by omega), Nat.add_sub_cancel_left,
      req.origin_phases _ _ (by omega), if_pos inside,
      again _ _ (some_unit inside)]
  · rw [drawn, if_pos (by omega), Nat.add_sub_cancel_left,
      req.origin_phases _ _ (by omega), if_neg (by omega),
      Nat.add_sub_cancel_left]
    exact congrArg m.byte? (again _ _ (some_unit inside))
  · rw [drawn, if_neg outside]

end Plan

end DmaController
