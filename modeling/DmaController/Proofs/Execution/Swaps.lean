/-
Copies that swap bytes. A store reverses the groups of what it takes, so
the bytes of a copy are mirrored within each burst and within each single
beat (`Request.Mirrors`). A group that does not fit into its unit is cut
there, and what is left of it is reversed on its own.

If all units of the plan consist of whole groups, where the bursts end
cannot be seen: every group of the source stands reversed at the
destination (`Request.Reverses`). Otherwise it can be, and single bytes
behind the bursts are not swapped at all.
-/
import DmaController.Proofs.Execution.Completion
import DmaController.Proofs.Transfer.Reach

namespace DmaController

namespace Request

/-- The destination has the bytes of the source, mirrored within each
burst and within each single beat, and nothing else changed. -/
structure Mirrors (req : Request) (m m' : Memory) : Prop where
  bursts : ∀ i < req.bursts.toNat * req.burstBytes.toNat,
    m'.byte? (req.destination.toNat + i) =
      m.byte? (req.source.toNat +
        (i / req.burstBytes.toNat * req.burstBytes.toNat +
          mirror req.swap.width req.burstBytes.toNat
            (i % req.burstBytes.toNat)))
  singles : ∀ i < req.singles.toNat * req.singleBytes.toNat,
    m'.byte? (req.destination.toNat +
        (req.bursts.toNat * req.burstBytes.toNat + i)) =
      m.byte? (req.source.toNat +
        (req.bursts.toNat * req.burstBytes.toNat +
          (i / req.singleBytes.toNat * req.singleBytes.toNat +
            mirror req.swap.width req.singleBytes.toNat
              (i % req.singleBytes.toNat))))
  frame : ∀ a, ¬ (req.destination.toNat ≤ a ∧
      a < req.destination.toNat +
        (req.bursts.toNat * req.burstBytes.toNat +
          req.singles.toNat * req.singleBytes.toNat)) →
    m'.byte? a = m.byte? a

/-- Every group of the source stands at the destination with its bytes
reversed. -/
def Reverses (req : Request) (m m' : Memory) : Prop :=
  ∀ g < req.size.toNat / req.swap.width, ∀ j < req.swap.width,
    m'.byte? (req.destination.toNat + (g * req.swap.width + j)) =
      m.byte? (req.source.toNat +
        (g * req.swap.width + (req.swap.width - 1 - j)))

end Request

-- ========================================================= whole groups

/-- The place that stands at place `i` when all groups are whole. -/
def Swap.partner (swap : Swap) (i : Nat) : Nat :=
  i / swap.width * swap.width + (swap.width - 1 - i % swap.width)

variable {swap : Swap} {length i : Nat}

/-- A place behind whole groups has its partner behind them. -/
theorem Swap.partner_add (whole : swap.width ∣ length) :
    swap.partner (length + i) = length + swap.partner i := by
  obtain ⟨count, rfl⟩ := whole
  unfold partner
  rw [Nat.mul_add_div swap.width_pos, Nat.mul_add_mod, Nat.add_mul,
    Nat.mul_comm count, Nat.add_assoc]

/-- The partner of a place in a group. -/
theorem Swap.partner_in_group (g : Nat) {j : Nat} (inside : j < swap.width) :
    swap.partner (g * swap.width + j) =
      g * swap.width + (swap.width - 1 - j) := by
  have own : swap.partner j = swap.width - 1 - j := by
    unfold partner
    rw [Nat.div_eq_of_lt inside, Nat.mod_eq_of_lt inside, Nat.zero_mul,
      Nat.zero_add]
  rw [partner_add (Nat.dvd_mul_left ..), own]

/-- In units of whole groups a byte comes from the partner of its place,
wherever the units end. -/
theorem Stride.origin_of_dvd {stride : Stride} (advances : stride.source = true)
    (whole : swap.width ∣ stride.length) (pos : 0 < stride.length)
    (source i : Nat) :
    stride.origin swap source i = source + swap.partner i := by
  have split := Nat.div_add_mod' i stride.length
  rw [origin, if_pos advances, mirror_of_dvd whole (Nat.mod_lt i pos),
    Nat.add_assoc]
  refine congrArg (source + ·) ?_
  conv => rhs; rw [← split]
  exact (Swap.partner_add (Nat.dvd_mul_left_of_dvd whole _)).symm

/-- The same over several phases. -/
theorem Phase.origin_of_dvd {phases : List Phase} {advance : Bool × Bool}
    (advances : advance.1 = true)
    (whole : ∀ phase ∈ phases, swap.width ∣ phase.unit.toNat) {source : Nat}
    (inside : i < phases.foldr (fun phase rest => phase.bytes + rest) 0) :
    origin advance swap phases source i = source + swap.partner i := by
  induction phases generalizing source i with
  | nil => cases inside
  | cons phase phases ih =>
      obtain ⟨first, rest⟩ := List.forall_mem_cons.1 whole
      rw [List.foldr_cons] at inside
      rw [origin]
      split
      next early =>
        have pos : 0 < phase.unit.toNat := by
          rw [phase.bytes_eq] at early
          exact Nat.pos_of_ne_zero fun zero => by simp [zero] at early
        exact Stride.origin_of_dvd advances first pos source i
      next late =>
        have groups : swap.width ∣ phase.bytes := by
          rw [phase.bytes_eq]
          exact Nat.dvd_mul_left_of_dvd first _
        obtain ⟨k, rfl⟩ := Nat.exists_eq_add_of_le (Nat.not_lt.1 late)
        rw [ih rest (by omega), Nat.add_sub_cancel_left, Nat.add_assoc,
          Swap.partner_add groups]

-- =============================================================== plans

namespace Plan

variable {req : Request} {cap : Capability} {plan : Plan} {m : Memory}

theorem increments_memoryToMemory (direction : req.direction = .memoryToMemory) :
    req.increments .copy = (true, true) := by
  rw [Request.increments, direction]

/-- A plan from memory to memory mirrors its units. -/
theorem mirrors (planned : req.plan cap .copy = .ok plan)
    (bus : cap.maxBurstSize.toNat ≤ 7)
    (direction : req.direction = .memoryToMemory)
    (stays : ∀ b ∈ plan.blocks req, b.Stays m)
    (apart : Block.Apart (plan.blocks req)) :
    req.Mirrors m ((plan.blocks req).foldl (Block.moved req.swap) m) := by
  have advances := increments_memoryToMemory direction
  have drawn := draws planned bus (by rw [advances]) stays apart
  rw [bytes_eq planned bus, phases_of_plan planned bus, advances] at drawn
  refine ⟨fun i inside => ?_, fun i inside => ?_, fun a outside => ?_⟩
  · rw [drawn, if_pos (by omega), Nat.add_sub_cancel_left,
      req.origin_phases _ _ (by omega), if_pos inside, ← Nat.add_assoc]
    rfl
  · rw [drawn, if_pos (by omega), Nat.add_sub_cancel_left,
      req.origin_phases _ _ (by omega), if_neg (by omega),
      Nat.add_sub_cancel_left, ← Nat.add_assoc, ← Nat.add_assoc]
    rfl
  · rw [drawn, if_neg outside]

/-- If its units consist of whole groups and nothing is left over, it
reverses the groups. -/
theorem reverses (planned : req.plan cap .copy = .ok plan)
    (bus : cap.maxBurstSize.toNat ≤ 7)
    (direction : req.direction = .memoryToMemory)
    (whole : ∀ phase ∈ plan.phases, req.swap.width ∣ phase.unit.toNat)
    (residue : plan.residue = 0)
    (stays : ∀ b ∈ plan.blocks req, b.Stays m)
    (apart : Block.Apart (plan.blocks req)) :
    req.Reverses m ((plan.blocks req).foldl (Block.moved req.swap) m) := by
  have advances := increments_memoryToMemory direction
  have drawn := draws planned bus (by rw [advances]) stays apart
  have all := bytes_add_residue bus planned
  rw [residue] at all
  intro g few j inside
  have within : g * req.swap.width + j < plan.bytes := by
    have room := Nat.mul_le_of_le_div _ _ _ (Nat.succ_le_of_lt few)
    rw [Nat.succ_mul] at room
    have none : (0 : UInt32).toNat = 0 := rfl
    omega
  rw [drawn, if_pos (by omega), Nat.add_sub_cancel_left,
    Phase.origin_of_dvd (by rw [advances]) whole within,
    Swap.partner_in_group g inside]

end Plan

-- ================================================================ runs

/-- A copy that swaps bytes, whose ranges lie in memory and are apart from
each other, with the code apart from the destination, runs to its end and
has mirrored its units; if they consist of whole groups and nothing is
left over, it has reversed the groups. -/
theorem swapped_copy_carried {variant : Variant} {req : Request}
    {buffer : ProgramBuffer} {program : Microprogram} {c : Controller}
    {n : UInt8} {window : Security} {idle : Channel} {m : Memory}
    (built : (req.buildIn .copy variant.capability buffer).result = .ok program)
    (direction : req.direction = .memoryToMemory)
    (reads : m.Holds req.source.toNat program.plan.bytes)
    (writes : m.Holds req.destination.toNat program.plan.bytes)
    (code : m.HoldsBytes program.busAddress.toNat program.code)
    (below : program.busAddress.toNat + program.code.length ≤ UInt32.size)
    (spared : ∀ a, program.busAddress.toNat ≤ a →
      a < program.busAddress.toNat + program.code.length →
      ¬ (req.destination.toNat ≤ a ∧
        a < req.destination.toNat + program.plan.bytes))
    (apart : ∀ a, req.source.toNat ≤ a →
      a < req.source.toNat + program.plan.bytes →
      ¬ (req.destination.toNat ≤ a ∧
        a < req.destination.toNat + program.plan.bytes))
    (same : c.capability = variant.capability)
    (there : c.channels[n.toNat]? = some idle) (stopped : idle.status = .stopped)
    (others : c.RestsBut n.toNat)
    (allowed : window = .secure ∨ program.nonSecure = true) :
    let started := c.managerCommand window
      (.go n program.busAddress program.nonSecure)
    ∃ ticks,
      (∀ k < ticks, (started.run m k).1.channels[n.toNat]?.map
        Channel.status = some .executing) ∧
      (∀ k, ticks < k → (started.run m k).1.channels[n.toNat]?.map
        Channel.status = some .stopped) ∧
      ∀ k, ticks ≤ k →
        req.Mirrors m (started.run m k).2 ∧
        ((∀ phase ∈ program.plan.phases,
            req.swap.width ∣ phase.unit.toNat) →
          program.residue = 0 → req.Reverses m (started.run m k).2) := by
  obtain ⟨bus, -, -⟩ := variant.capability_suffices
  obtain ⟨plan, planned, rfl⟩ := Request.program_of_buildIn built
  obtain ⟨mode, -, -⟩ := Plan.ready_of_plan bus planned
  have advances := Plan.increments_memoryToMemory direction
  -- both sides advance, so each is accessed at all bytes that are moved
  have from_source : plan.reach (req.increments .copy).1 = plan.bytes := by
    rw [advances]
    rfl
  have to_destination : plan.reach (req.increments .copy).2 = plan.bytes := by
    rw [advances]
    rfl
  have stays := Plan.stays_of_reach mode (from_source ▸ reads)
    (to_destination ▸ writes)
  have unread : Block.Apart (plan.blocks req) :=
    Plan.apart_of_reach mode (by rw [from_source, to_destination]; exact apart)
  have completes := built_program_completes built code below
    (Plan.sparesRange_of_reach mode (by rw [to_destination]; exact spared))
    stays same there stopped others allowed
  refine ⟨plan.ticks req, completes.executing, completes.stopped,
    fun k late => ?_⟩
  rw [completes.memory k late]
  exact ⟨Plan.mirrors planned bus direction stays unread,
    fun whole residue =>
      Plan.reverses planned bus direction whole residue stays unread⟩

-- ===================================================== a copy of words

/-- Three words are copied in a burst of two and, behind it, in beats of
the given size; the bytes of each word are to be swapped. -/
def wordCopy (tail : UInt8) : Request :=
  { source := 0x80, destination := 0xc0, size := 12, burstSize := 3,
    burstLength := 1, singleBurstSize := tail, swap := .bits32 }

/-- The program of this copy, to stand at the start of memory. -/
def wordCopyProgram (tail : UInt8) : Microprogram :=
  Plan.program ⟨.copy, (wordCopy tail).phases .copy, 0⟩ (wordCopy tail) 0

/-- A memory that has the program, and three words to copy. -/
def wordCopyMemory (tail : UInt8) : Memory :=
  ((Memory.zeroed 0 0x100).put 0 (wordCopyProgram tail).code).put 0x80
    [1, 2, 3, 4, 5, 6, 7, 8, 9, 10, 11, 12]

theorem build_wordCopy {tail : UInt8} (h : tail = 0 ∨ tail = 2) :
    ((wordCopy tail).buildIn .copy Variant.pl330.capability
      ⟨List.replicate 64 0, 0⟩).result = .ok (wordCopyProgram tail) := by
  rcases h with rfl | rfl <;> decide +kernel

theorem holdsBytes_wordCopyMemory {tail : UInt8} (h : tail = 0 ∨ tail = 2) :
    (wordCopyMemory tail).HoldsBytes 0 (wordCopyProgram tail).code := by
  unfold Memory.HoldsBytes
  rcases h with rfl | rfl <;> decide +kernel

theorem wordCopy_bounded {tail : UInt8} (h : tail = 0 ∨ tail = 2) :
    (wordCopyProgram tail).plan.bytes = 12 ∧
      (wordCopyProgram tail).busAddress.toNat +
        (wordCopyProgram tail).code.length ≤ 0x40 := by
  rcases h with rfl | rfl <;> decide +kernel

theorem wordCopyMemory_holds {tail : UInt8} (h : tail = 0 ∨ tail = 2) :
    (wordCopyMemory tail).Holds (wordCopy tail).source.toNat
        (wordCopyProgram tail).plan.bytes ∧
      (wordCopyMemory tail).Holds (wordCopy tail).destination.toNat
        (wordCopyProgram tail).plan.bytes := by
  rcases h with rfl | rfl <;> decide +kernel

theorem wordCopy_apart {tail : UInt8} (h : tail = 0 ∨ tail = 2) :
    (∀ a, (wordCopyProgram tail).busAddress.toNat ≤ a →
      a < (wordCopyProgram tail).busAddress.toNat +
        (wordCopyProgram tail).code.length →
      ¬ ((wordCopy tail).destination.toNat ≤ a ∧
        a < (wordCopy tail).destination.toNat +
          (wordCopyProgram tail).plan.bytes)) ∧
    ∀ a, (wordCopy tail).source.toNat ≤ a →
      a < (wordCopy tail).source.toNat + (wordCopyProgram tail).plan.bytes →
      ¬ ((wordCopy tail).destination.toNat ≤ a ∧
        a < (wordCopy tail).destination.toNat +
          (wordCopyProgram tail).plan.bytes) := by
  obtain ⟨bytes, code⟩ := wordCopy_bounded h
  rw [bytes]
  have source : (wordCopy tail).source.toNat = 0x80 := rfl
  have destination : (wordCopy tail).destination.toNat = 0xc0 := rfl
  constructor <;> intros <;> omega

/-- With a tail of words, the copy reverses all three of them. -/
theorem swapped_copy_carried_three_words :
    ∃ ticks, ∀ k, ticks ≤ k →
      (wordCopy 2).Reverses (wordCopyMemory 2)
        (((Controller.new .pl330).managerCommand .secure
          (.go 0 0 false)).run (wordCopyMemory 2) k).2 := by
  obtain ⟨reads, writes⟩ := wordCopyMemory_holds (.inr rfl)
  obtain ⟨spared, apart⟩ := wordCopy_apart (.inr rfl)
  obtain ⟨ticks, -, -, carried⟩ := swapped_copy_carried
    (c := .new .pl330) (n := 0) (build_wordCopy (.inr rfl)) rfl
    reads writes (holdsBytes_wordCopyMemory (.inr rfl))
    (Nat.le_trans (wordCopy_bounded (.inr rfl)).2 (by decide)) spared apart
    rfl rfl rfl (Controller.restsBut_new _ _) (.inl rfl)
  exact ⟨ticks, fun k late => (carried k late).2 (by decide +kernel) rfl⟩

/-- Where units cut groups this is not so: with a tail of single bytes the
burst of the same copy is swapped and the tail is not. -/
theorem tail_not_swapped :
    ¬ ∀ (variant : Variant) (req : Request) (buffer : ProgramBuffer)
      (program : Microprogram) (c : Controller) (n : UInt8)
      (window : Security) (idle : Channel) (m : Memory),
      (req.buildIn .copy variant.capability buffer).result = .ok program →
      req.direction = .memoryToMemory → req.swap ≠ .none →
      program.residue = 0 → req.swap.width ∣ req.source.toNat →
      req.swap.width ∣ req.destination.toNat →
      req.swap.width ∣ req.size.toNat →
      m.Holds req.source.toNat program.plan.bytes →
      m.Holds req.destination.toNat program.plan.bytes →
      m.HoldsBytes program.busAddress.toNat program.code →
      program.busAddress.toNat + program.code.length ≤ UInt32.size →
      (∀ a, program.busAddress.toNat ≤ a →
        a < program.busAddress.toNat + program.code.length →
        ¬ (req.destination.toNat ≤ a ∧
          a < req.destination.toNat + program.plan.bytes)) →
      (∀ a, req.source.toNat ≤ a →
        a < req.source.toNat + program.plan.bytes →
        ¬ (req.destination.toNat ≤ a ∧
          a < req.destination.toNat + program.plan.bytes)) →
      c.capability = variant.capability →
      c.channels[n.toNat]? = some idle → idle.status = .stopped →
      c.RestsBut n.toNat →
      (window = .secure ∨ program.nonSecure = true) →
      let started := c.managerCommand window
        (.go n program.busAddress program.nonSecure)
      ∃ ticks, ∀ k, ticks < k →
        (started.run m k).1.channels[n.toNat]?.map Channel.status =
          some .stopped ∧
        req.Reverses m (started.run m k).2 := by
  intro promised
  obtain ⟨reads, writes⟩ := wordCopyMemory_holds (.inl rfl)
  obtain ⟨spared, apart⟩ := wordCopy_apart (.inl rfl)
  have below : (wordCopyProgram 0).busAddress.toNat +
      (wordCopyProgram 0).code.length ≤ UInt32.size :=
    Nat.le_trans (wordCopy_bounded (.inl rfl)).2 (by decide)
  obtain ⟨ticks, reverses⟩ := promised .pl330 (wordCopy 0) _
    (wordCopyProgram 0) (.new .pl330) 0 .secure _ (wordCopyMemory 0)
    (build_wordCopy (.inl rfl)) rfl (by decide) rfl (by decide) (by decide)
    (by decide) reads writes (holdsBytes_wordCopyMemory (.inl rfl)) below
    spared apart rfl rfl rfl (Controller.restsBut_new _ _) (.inl rfl)
  have stays : ∀ b ∈ (wordCopyProgram 0).plan.blocks (wordCopy 0),
      b.Stays (wordCopyMemory 0) := Plan.stays_of_reach rfl reads writes
  have completes := built_program_completes (c := .new .pl330) (n := 0)
    (build_wordCopy (.inl rfl)) (holdsBytes_wordCopyMemory (.inl rfl)) below
    (Plan.sparesRange_of_reach rfl spared) stays rfl rfl rfl
    (Controller.restsBut_new _ _) (.inl rfl : Security.secure = .secure ∨ _)
  obtain ⟨-, swapped⟩ := reverses _
    (Nat.lt_succ_of_le (Nat.le_max_left ticks _))
  rw [completes.memory _ (Nat.le_succ_of_le (Nat.le_max_right ticks _))]
    at swapped
  -- the last word starts with the byte that it should end with
  have first := swapped 2 (by decide) 0 (by decide)
  exact absurd first (by decide +kernel)

end DmaController