/-
Peripheral transfers as they run. A built program for a peripheral on one
side, started on an idle controller, runs to its end; no load and no
store of it is skipped, because the wait in front of each notes the kind
of request that their condition asks for. What it has written by then is
delivered to the peripheral, or collected from it.
-/
import DmaController.Proofs.Execution.Completion
import DmaController.Proofs.Transfer.Peripherals

namespace DmaController

/-- A peripheral transfer whose ranges lie in memory and are apart from
each other, with the code apart from what is written, is carried out
whole. -/
theorem peripheral_transfer_carried {variant : Variant} {req : Request}
    {buffer : ProgramBuffer} {program : Microprogram} {c : Controller}
    {n : UInt8} {window : Security} {idle : Channel} {m : Memory}
    (plain : req.swap = .none)
    (built : (req.buildIn .copy variant.capability buffer).result = .ok program)
    (reads : m.Holds req.source.toNat
      (program.plan.reach (req.increments .copy).1))
    (writes : m.Holds req.destination.toNat
      (program.plan.reach (req.increments .copy).2))
    (code : m.HoldsBytes program.busAddress.toNat program.code)
    (below : program.busAddress.toNat + program.code.length ≤ UInt32.size)
    (spared : ∀ a, program.busAddress.toNat ≤ a →
      a < program.busAddress.toNat + program.code.length →
      ¬ (req.destination.toNat ≤ a ∧ a < req.destination.toNat +
        program.plan.reach (req.increments .copy).2))
    (apart : ∀ a, req.source.toNat ≤ a →
      a < req.source.toNat + program.plan.reach (req.increments .copy).1 →
      ¬ (req.destination.toNat ≤ a ∧ a < req.destination.toNat +
        program.plan.reach (req.increments .copy).2))
    (same : c.capability = variant.capability)
    (there : c.channels[n.toNat]? = some idle) (stopped : idle.status = .stopped)
    (others : c.RestsBut n.toNat)
    (allowed : window = .secure ∨ program.nonSecure = true) :
    let started := c.managerCommand window
      (.go n program.busAddress program.nonSecure)
    program.plan.bytes = req.bursts.toNat * req.burstBytes.toNat +
        req.singles.toNat * req.singleBytes.toNat ∧
      (∀ k ch, (started.run m k).1.channels[n.toNat]? = some ch →
        ch.SkipsNothing (started.run m k).2) ∧
      ∃ ticks,
        (∀ k < ticks, (started.run m k).1.channels[n.toNat]?.map
          Channel.status = some .executing) ∧
        (∀ k, ticks < k → (started.run m k).1.channels[n.toNat]?.map
          Channel.status = some .stopped) ∧
        ∀ k, ticks ≤ k →
          (req.direction = .memoryToPeriph →
            req.Delivers m (started.moves m k n.toNat)) ∧
          (req.direction = .periphToMemory →
            req.Collects m (started.run m k).2) := by
  obtain ⟨bus, -, -⟩ := variant.capability_suffices
  obtain ⟨plan, planned, rfl⟩ := Request.program_of_buildIn built
  obtain ⟨mode, -, -⟩ := Plan.ready_of_plan bus planned
  have stays := Plan.stays_of_reach mode reads writes
  have unread := Plan.apart_of_reach mode apart
  have completes := built_program_completes built code below
    (Plan.sparesRange_of_reach mode spared) stays same there stopped others
    allowed
  refine ⟨Plan.bytes_eq planned bus, completes.skipsNothing, plan.ticks req,
    completes.executing, completes.stopped, fun k late => ⟨?_, ?_⟩⟩
  · intro direction
    rw [completes.moves k late, plain]
    exact Plan.delivers planned bus direction stays unread
  · intro direction
    rw [completes.memory k late]
    exact Plan.collects planned bus direction plain stays unread

/-- A burst of four words and four single bytes for a peripheral. -/
theorem peripheral_transfer_carried_burst_and_singles :
    ∃ (req : Request) (program : Microprogram),
      req.direction = .memoryToPeriph ∧ req.bursts = 1 ∧ req.singles = 4 ∧
      (req.buildIn .copy .pl330 ⟨List.replicate 64 0, 0⟩).result = .ok program ∧
      ∃ ticks, ∀ k, ticks ≤ k →
        req.Delivers ((Memory.zeroed 0 0x100).put 0 program.code)
          (((Controller.new .pl330).managerCommand .secure
            (.go 0 program.busAddress program.nonSecure)).moves
              ((Memory.zeroed 0 0x100).put 0 program.code) k
              (0 : UInt8).toNat) := by
  obtain ⟨req, source, destination, direction, swap, bursts, singles, plan,
      planned, small, near, far⟩ : ∃ req : Request,
        req.source = 0x80 ∧ req.destination = 0xc0 ∧
        req.direction = .memoryToPeriph ∧ req.swap = .none ∧
        req.bursts = 1 ∧ req.singles = 4 ∧
        ∃ plan, req.plan .pl330 .copy = .ok plan ∧
          Instruction.totalLength (plan.instructions req) ≤ 64 ∧
          plan.reach (req.increments .copy).1 = 20 ∧
          plan.reach (req.increments .copy).2 = 16 :=
    ⟨{ source := 0x80, destination := 0xc0, size := 20, burstSize := 2,
        burstLength := 4, periph := 1, direction := .memoryToPeriph },
      rfl, rfl, rfl, rfl, by decide +kernel, by decide +kernel,
      ⟨.copy, _, _⟩, rfl, by decide +kernel, by decide +kernel,
      by decide +kernel⟩
  have built : (req.buildIn .copy Variant.pl330.capability
      ⟨List.replicate 64 0, 0⟩).result = .ok (plan.program req 0) :=
    Request.buildIn_of_plan planned small 0
  rw [← Instruction.length_assemble] at small
  have within {a : Nat} (high : a < 0 + (plan.program req 0).code.length) :
      a < 64 :=
    Nat.lt_of_lt_of_le high (Nat.add_le_add_left small 0)
  have room {first length : Nat} (pos : 0 < length)
      (inside : first + length ≤ 0x100) :
      ((Memory.zeroed 0 0x100).put 0 (plan.program req 0).code).Holds first
        length :=
    (Memory.samePlace_put ..).holds_iff.2
      ((Memory.holds_iff pos).2 ⟨Nat.zero_le _, inside⟩)
  have spared : ∀ a, 0 ≤ a → a < 0 + (plan.program req 0).code.length →
      ¬ (req.destination.toNat ≤ a ∧ a < req.destination.toNat +
        plan.reach (req.increments .copy).2) := by
    intro a _ high inside
    rw [destination] at inside
    exact absurd inside.1 (Nat.not_le.2 (Nat.lt_trans (within high) (by decide)))
  have apart : ∀ a, req.source.toNat ≤ a →
      a < req.source.toNat + plan.reach (req.increments .copy).1 →
      ¬ (req.destination.toNat ≤ a ∧ a < req.destination.toNat +
        plan.reach (req.increments .copy).2) := by
    intro a _ high inside
    rw [source, near] at high
    rw [destination] at inside
    exact absurd inside.1 (Nat.not_le.2 (Nat.lt_trans high (by decide)))
  obtain ⟨-, -, ticks, -, -, moved⟩ := peripheral_transfer_carried
    (m := (Memory.zeroed 0 0x100).put 0 (plan.program req 0).code)
    (c := .new .pl330) (n := 0) swap built
    (source ▸ near ▸ room (by decide) (by decide))
    (destination ▸ far ▸ room (by decide) (by decide))
    (Memory.holdsBytes_put ⟨by decide,
      Nat.le_trans (Nat.add_le_add_left small _) (by decide)⟩)
    (Nat.le_trans (Nat.add_le_add_left small 0) (by decide))
    spared apart rfl rfl rfl (Controller.restsBut_new _ _) (.inl rfl)
  exact ⟨req, _, direction, bursts, singles, built, ticks,
    fun k late => (moved k late).1 direction⟩

end DmaController
