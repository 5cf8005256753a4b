/-
What a copy makes of memory. The units of a copy from memory to memory
are moved from low addresses to high ones, each read as a whole before it
is written. So later units still find their bytes as they were before the
copy if what was written lies behind them, or if the two ranges do not
meet at all: then the destination has the bytes that the source had, even
where it has overwritten them.

The induction is over the units, and `Copies.trans` carries it: a copy
behind a copy is one copy of both ranges.
-/
import DmaController.Proofs.Transfer.Planning

namespace DmaController

-- ============================================================== copies

/-- One memory is another one after `length` bytes were copied: the
destination has the bytes the source had, and nothing else changed. -/
def Memory.Copies (m m' : Memory) (source destination length : Nat) : Prop :=
  ∀ a, m'.byte? a =
    if destination ≤ a ∧ a < destination + length then
      m.byte? (source + (a - destination))
    else m.byte? a

/-- A copy from low to high addresses does not read what it wrote. -/
def Downward (source destination length : Nat) : Prop :=
  destination ≤ source ∨ source + length ≤ destination

namespace Memory

variable {m m₁ m₂ : Memory} {source destination : Nat}

theorem copies_zero (m : Memory) (source destination : Nat) :
    m.Copies m source destination 0 := by
  intro a
  rw [if_neg (by omega)]

/-- A copy and the copy behind it are one. -/
theorem Copies.trans {a b : Nat} (first : m.Copies m₁ source destination a)
    (second : m₁.Copies m₂ (source + a) (destination + a) b)
    (downward : Downward source destination (a + b)) :
    m.Copies m₂ source destination (a + b) := by
  intro x
  rw [second x]
  by_cases later : destination + a ≤ x ∧ x < destination + a + b
  · -- the second part reads behind what the first one wrote
    have unread : ¬ (destination ≤ source + a + (x - (destination + a)) ∧
        source + a + (x - (destination + a)) < destination + a) := by
      unfold Downward at downward
      omega
    have place : source + a + (x - (destination + a)) =
        source + (x - destination) := by omega
    rw [if_pos later, first, if_neg unread, place, if_pos (by omega)]
  · rw [if_neg later, first]
    by_cases earlier : destination ≤ x ∧ x < destination + a
    · rw [if_pos earlier, if_pos (by omega)]
    · rw [if_neg earlier, if_neg (by omega)]

end Memory

-- =============================================================== units

namespace Block

/-- A block with a source is copied from there, unless its bytes are
swapped. -/
theorem copies_moved {m : Memory} {source destination length : Nat}
    (bus : OnBus ⟨some source, destination, length⟩)
    (stays : Stays m ⟨some source, destination, length⟩) :
    m.Copies (moved .none m ⟨some source, destination, length⟩)
      source destination length := by
  intro a
  by_cases inside : destination ≤ a ∧ a < destination + length
  · have put : moved .none m ⟨some source, destination, length⟩ =
        m.put (UInt64.ofNat destination)
          (m.load (source - m.base.toNat) length) := rfl
    have covers : m.Covers (UInt64.ofNat destination) length :=
      bus.covers_destination stays
    have small : (UInt64.ofNat destination).toNat = destination :=
      toNat_address bus.destination_lt
    have count : (m.load (source - m.base.toNat) length).length = length := by
      simp
    rw [← count] at covers
    rw [put, Memory.byte?_put covers, small, count, if_pos inside,
      if_pos inside]
    exact Memory.getElem?_load (stays.1 source rfl) (by omega)
  · rw [byte?_moved_of_outside bus stays inside, if_neg inside]

/-- The units of a stride that advances on both sides copy one range. -/
theorem copies_stride {m : Memory} {length source destination : Nat}
    (count : Nat)
    (bus : ∀ b ∈ Stride.blocks ⟨length, true, true⟩ (some source) destination
      count, b.OnBus)
    (stays : ∀ b ∈ Stride.blocks ⟨length, true, true⟩ (some source) destination
      count, b.Stays m)
    (downward : Downward source destination (count * length)) :
    m.Copies
      ((Stride.blocks ⟨length, true, true⟩ (some source) destination
        count).foldl (moved .none) m)
      source destination (count * length) := by
  induction count generalizing m source destination with
  | zero =>
      rw [Nat.zero_mul]
      exact Memory.copies_zero m source destination
  | succ count ih =>
      rw [Stride.blocks] at bus stays ⊢
      obtain ⟨bus₁, bus₂⟩ := List.forall_mem_cons.1 bus
      obtain ⟨stays₁, stays₂⟩ := List.forall_mem_cons.1 stays
      rw [Nat.add_mul, Nat.one_mul, Nat.add_comm] at downward ⊢
      simp only [Stride.sourceAfter, Stride.destinationAfter, Option.map_some,
        if_true, Nat.one_mul] at bus₂ stays₂ ⊢
      refine (copies_moved bus₁ stays₁).trans
        (ih bus₂ (fun b hb => ?_) ?_) downward
      · exact (stays_of_samePlace samePlace_moved).2 (stays₂ b hb)
      · unfold Downward at downward ⊢
        omega

theorem samePlace_foldl (swap : Swap) (blocks : List Block) (m : Memory) :
    m.SamePlace (blocks.foldl (moved swap) m) := by
  induction blocks generalizing m with
  | nil => exact ⟨rfl, rfl⟩
  | cons b blocks ih => exact samePlace_moved.trans (ih _)

end Block

/-- Phases that advance on both sides copy one range after the other. -/
theorem Phase.copies {m : Memory} {phases : List Phase}
    {source destination : Nat}
    (bus : ∀ b ∈ blocksFrom (true, true) phases (some source) destination,
      b.OnBus)
    (stays : ∀ b ∈ blocksFrom (true, true) phases (some source) destination,
      b.Stays m)
    (downward : Downward source destination
      (phases.foldr (fun phase rest => phase.bytes + rest) 0)) :
    m.Copies
      ((blocksFrom (true, true) phases (some source) destination).foldl
        (Block.moved .none) m)
      source destination
      (phases.foldr (fun phase rest => phase.bytes + rest) 0) := by
  induction phases generalizing m source destination with
  | nil => exact Memory.copies_zero m source destination
  | cons phase phases ih =>
      rw [blocksFrom] at bus stays ⊢
      obtain ⟨bus₁, bus₂⟩ := List.forall_mem_append.1 bus
      obtain ⟨stays₁, stays₂⟩ := List.forall_mem_append.1 stays
      rw [List.foldr_cons] at downward ⊢
      rw [List.foldl_append]
      have bytes := phase.bytes_eq
      have first := Block.copies_stride phase.rounds bus₁ stays₁ (by
        rw [← bytes]
        unfold Downward at downward ⊢
        omega)
      rw [← bytes] at first
      simp only [Stride.sourceAfter, Stride.destinationAfter, Phase.stride,
        Option.map_some, if_true, ← bytes] at bus₂ stays₂ ⊢
      refine first.trans (ih bus₂ (fun b hb => ?_) ?_) downward
      · exact (Block.stays_of_samePlace (Block.samePlace_foldl _ _ m)).2
          (stays₂ b hb)
      · unfold Downward at downward ⊢
        omega

-- =============================================================== plans

namespace Plan

variable {req : Request} {cap : Capability} {plan : Plan} {m : Memory}

/-- The units of a copy all lie in memory if its two ranges do. -/
theorem stays_of_holds (planned : req.plan cap .copy = .ok plan)
    (bus : cap.maxBurstSize.toNat ≤ 7)
    (reads : m.Holds req.source.toNat plan.bytes)
    (writes : m.Holds req.destination.toNat plan.bytes) :
    ∀ b ∈ plan.blocks req, b.Stays m := by
  intro b mem
  have within := within_of_mem mem
  obtain ⟨mode, -, -⟩ := ready_of_plan bus planned
  rw [mode] at within
  refine ⟨fun s hs => ?_, writes.mono within.destination.1 within.destination.2⟩
  obtain ⟨low, high⟩ := within.source s hs _ rfl
  exact reads.mono low high

/-- A plan from memory to memory copies all bytes but the residue. -/
theorem copies (planned : req.plan cap .copy = .ok plan)
    (bus : cap.maxBurstSize.toNat ≤ 7)
    (direction : req.direction = .memoryToMemory) (plain : req.swap = .none)
    (reads : m.Holds req.source.toNat plan.bytes)
    (writes : m.Holds req.destination.toNat plan.bytes)
    (downward : Downward req.source.toNat req.destination.toNat plan.bytes) :
    ∃ m', Block.moveAll req.swap (plan.blocks req) m = (m', none) ∧
      m.Copies m' req.source.toNat req.destination.toNat plan.bytes := by
  have stays := stays_of_holds planned bus reads writes
  have onBus : ∀ b ∈ plan.blocks req, b.OnBus :=
    fun b mem => onBus_of_mem bus planned mem
  refine ⟨_, Block.moveAll_of_stays stays, ?_⟩
  obtain ⟨mode, -, -⟩ := ready_of_plan bus planned
  have advances : req.increments plan.mode = (true, true) := by
    rw [mode, Request.increments, direction]
  unfold Plan.blocks at stays onBus ⊢
  rw [advances, mode] at stays onBus ⊢
  rw [plain]
  exact Phase.copies onBus stays downward

end Plan

end DmaController
