/-
How far a plan reaches. A side whose address advances is accessed all
over the range that is moved; a side whose address stands is accessed at
one place, as far as the largest unit goes. If both ranges lie in memory,
so does every unit; and if what is written meets neither the code nor what
is read, then no unit disturbs the program or another unit.

From this the meaning of a plan with an advancing destination follows:
the range it fills is drawn from memory as it was (`Plan.draws`), burst by
burst and then beat by beat (`Request.origin_phases`).
-/
import DmaController.Proofs.Transfer.Draws

namespace DmaController

/-- The bytes of the largest unit. -/
def Plan.largestUnit (plan : Plan) : Nat :=
  plan.phases.foldr (fun phase rest => max phase.unit.toNat rest) 0

/-- The bytes that a side of a transfer is accessed at: all that are moved
if its address advances, and those of the largest unit if it stands. -/
def Plan.reach (plan : Plan) (advances : Bool) : Nat :=
  if advances then plan.bytes else plan.largestUnit

/-- A block of phases that stand on a side is at the place where they
stand, and is one of their units. -/
theorem Phase.stands_of_mem {advance : Bool × Bool} {phases : List Phase}
    {source : Option Nat} {destination : Nat} {b : Block}
    (h : b ∈ blocksFrom advance phases source destination) :
    (advance.1 = false → b.source = source) ∧
      (advance.2 = false → b.destination = destination) ∧
      b.length ≤ phases.foldr (fun phase rest => max phase.unit.toNat rest) 0 := by
  induction phases generalizing source destination with
  | nil => cases h
  | cons phase phases ih =>
      rw [List.foldr_cons]
      rcases List.mem_append.1 h with h | h
      · obtain ⟨k, -, rfl⟩ := (Stride.mem_blocks ..).1 h
        refine ⟨fun stands => ?_, fun stands => ?_, Nat.le_max_left ..⟩
        · simp [Stride.sourceAfter, Phase.stride, stands]
        · simp [Stride.destinationAfter, Phase.stride, stands]
      · obtain ⟨source₁, destination₁, length⟩ := ih h
        refine ⟨fun stands => ?_, fun stands => ?_,
          Nat.le_trans length (Nat.le_max_right ..)⟩
        · simp [source₁ stands, Stride.sourceAfter, Phase.stride, stands]
        · simp [destination₁ stands, Stride.destinationAfter, Phase.stride,
            stands]

namespace Plan

variable {req : Request} {cap : Capability} {plan : Plan} {m : Memory}
  {b : Block}

/-- A block that reads does so within the reach of the source. -/
theorem source_within_reach (mem : b ∈ plan.blocks req) {s first : Nat}
    (source : s ∈ b.source) (origin : first ∈ req.origin plan.mode) :
    first ≤ s ∧ s + b.length ≤ first + plan.reach (req.increments plan.mode).1 := by
  unfold reach
  split
  next => exact (within_of_mem mem).source s source first origin
  next stands =>
    obtain ⟨place, -, length⟩ := Phase.stands_of_mem mem
    rw [place (Bool.eq_false_iff.2 stands)] at source
    cases Option.some.inj (source.symm.trans origin)
    exact ⟨Nat.le_refl _, Nat.add_le_add_left length _⟩

/-- A block writes within the reach of the destination. -/
theorem destination_within_reach (mem : b ∈ plan.blocks req) :
    req.destination.toNat ≤ b.destination ∧
      b.destination + b.length ≤
        req.destination.toNat + plan.reach (req.increments plan.mode).2 := by
  unfold reach
  split
  next => exact (within_of_mem mem).destination
  next stands =>
    obtain ⟨-, place, length⟩ := Phase.stands_of_mem mem
    rw [place (Bool.eq_false_iff.2 stands)]
    exact ⟨Nat.le_refl _, Nat.add_le_add_left length _⟩

/-- The units of a copy lie in memory if what it reaches does. -/
theorem stays_of_reach (mode : plan.mode = .copy)
    (reads : m.Holds req.source.toNat
      (plan.reach (req.increments .copy).1))
    (writes : m.Holds req.destination.toNat
      (plan.reach (req.increments .copy).2)) :
    ∀ b ∈ plan.blocks req, b.Stays m := by
  rw [← mode] at reads writes
  intro b mem
  refine ⟨fun s source => ?_, ?_⟩
  · obtain ⟨low, high⟩ :=
      source_within_reach mem source (by rw [mode]; rfl)
    exact reads.mono low high
  · obtain ⟨low, high⟩ := destination_within_reach mem
    exact writes.mono low high

/-- The units of a copy spare a range that the destination does not
reach. -/
theorem sparesRange_of_reach (mode : plan.mode = .copy) {first length : Nat}
    (apart : ∀ a, first ≤ a → a < first + length →
      ¬ (req.destination.toNat ≤ a ∧
        a < req.destination.toNat + plan.reach (req.increments .copy).2)) :
    ∀ b ∈ plan.blocks req, b.SparesRange first length := by
  rw [← mode] at apart
  intro b mem a low high inside
  obtain ⟨start, stop⟩ := destination_within_reach mem
  exact apart a low high ⟨by omega, by omega⟩

/-- The units of a copy are apart if what it reads and what it writes
is. -/
theorem apart_of_reach (mode : plan.mode = .copy)
    (apart : ∀ a, req.source.toNat ≤ a →
      a < req.source.toNat + plan.reach (req.increments .copy).1 →
      ¬ (req.destination.toNat ≤ a ∧
        a < req.destination.toNat + plan.reach (req.increments .copy).2)) :
    Block.Apart (plan.blocks req) := by
  intro b memB c memC s source a low high
  obtain ⟨start, stop⟩ := source_within_reach memC source (by rw [mode]; rfl)
  rw [mode] at stop
  exact sparesRange_of_reach mode apart b memB a (by omega) (by omega)

/-- A copy whose destination advances draws the range it moves. -/
theorem draws (planned : req.plan cap .copy = .ok plan)
    (bus : cap.maxBurstSize.toNat ≤ 7)
    (advances : (req.increments .copy).2 = true)
    (stays : ∀ b ∈ plan.blocks req, b.Stays m)
    (apart : Block.Apart (plan.blocks req)) :
    m.Draws ((plan.blocks req).foldl (Block.moved req.swap) m)
      req.destination.toNat plan.bytes
      (Phase.origin (req.increments .copy) req.swap plan.phases
        req.source.toNat) := by
  have onBus : ∀ b ∈ plan.blocks req, b.OnBus :=
    fun b mem => onBus_of_mem bus planned mem
  obtain ⟨mode, -, -⟩ := ready_of_plan bus planned
  unfold blocks at stays apart onBus ⊢
  rw [mode] at stays apart onBus ⊢
  exact Phase.draws req.swap advances onBus stays apart

/-- The phases of a plan for the request. -/
theorem phases_of_plan (planned : req.plan cap .copy = .ok plan)
    (bus : cap.maxBurstSize.toNat ≤ 7) : plan.phases = req.phases .copy := by
  obtain ⟨-, rfl⟩ := (Request.plan_eq_ok_iff bus).1 planned
  rfl

/-- A plan moves its bursts and its single beats. -/
theorem bytes_eq (planned : req.plan cap .copy = .ok plan)
    (bus : cap.maxBurstSize.toNat ≤ 7) :
    plan.bytes = req.bursts.toNat * req.burstBytes.toNat +
      req.singles.toNat * req.singleBytes.toNat := by
  rw [bytes, phases_of_plan planned bus, req.bytes_phases]

end Plan

/-- Where the bytes of a plan's phases come from: a burst, and behind the
bursts a single beat. -/
theorem Request.origin_phases (req : Request) {mode : Mode}
    (advance : Bool × Bool) (swap : Swap) {source i : Nat}
    (inside : i < req.bursts.toNat * req.burstBytes.toNat +
      req.singles.toNat * req.singleBytes.toNat) :
    Phase.origin advance swap (req.phases mode) source i =
      if i < req.bursts.toNat * req.burstBytes.toNat then
        Stride.origin ⟨req.burstBytes.toNat, advance.1, advance.2⟩ swap
          source i
      else
        Stride.origin ⟨req.singleBytes.toNat, advance.1, advance.2⟩ swap
          (source + if advance.1 then
            req.bursts.toNat * req.burstBytes.toNat else 0)
          (i - req.bursts.toNat * req.burstBytes.toNat) := by
  have bytes (kind : PhaseKind) (control : Register.ChannelControl)
      (unit : UInt32) (count : Nat) :
      Phase.bytes ⟨kind, control, unit, splitLoops count⟩ =
        count * unit.toNat := by
    rw [Phase.bytes_eq, Phase.rounds, sum_iterations_splitLoops]
  unfold phases burstPhase? singlePhase?
  split
  next noBursts =>
    have none : req.bursts.toNat * req.burstBytes.toNat = 0 := by
      rw [noBursts]
      exact Nat.zero_mul _
    rw [none] at inside ⊢
    split
    next noSingles => simp [noSingles] at inside
    next =>
      rw [Nat.zero_add] at inside
      simp [Phase.origin, bytes, inside, Phase.stride]
  next =>
    split
    next noSingles =>
      have few : i < req.bursts.toNat * req.burstBytes.toNat := by
        simpa [noSingles] using inside
      simp [Phase.origin, bytes, few, Phase.stride]
    next =>
      have behind : ¬ i < req.bursts.toNat * req.burstBytes.toNat →
          i - req.bursts.toNat * req.burstBytes.toNat <
            req.singles.toNat * req.singleBytes.toNat := by
        omega
      simp only [Option.toList_some, List.singleton_append, Phase.origin, bytes,
        Phase.stride]
      split
      next => rfl
      next late => rw [if_pos (behind late)]

end DmaController
