/-
What a zero fill makes of memory. Its units read nothing, so the order
they are written in does not matter: a byte is zero afterwards if some
unit writes it, and is what it was if none does. And its units lie side
by side, since the destination of a zero fill always advances; together
they write every byte of the range, and by `Plan.within_of_mem` no other
one.

A zero fill ends in single bytes, so nothing is too small to be
cleared.
-/
import DmaController.Proofs.Transfer.Planning

namespace DmaController

-- ============================================================= clearing

/-- One memory is another one after `length` bytes were cleared: they are
zero, and nothing else changed. -/
def Memory.Clears (m m' : Memory) (destination length : Nat) : Prop :=
  ∀ a, m'.byte? a =
    if destination ≤ a ∧ a < destination + length then some 0 else m.byte? a

/-- The block writes the byte at an address. -/
def Block.WritesAt (b : Block) (a : Nat) : Prop :=
  b.destination ≤ a ∧ a < b.destination + b.length

namespace Block

variable {m : Memory} {swap : Swap}

/-- A block without a source clears what it writes. -/
theorem byte?_moved_of_writesAt {b : Block} (unread : b.source = none)
    (bus : b.OnBus) (stays : b.Stays m) {a : Nat} (writes : b.WritesAt a) :
    (b.moved swap m).byte? a = some 0 := by
  have covers := bus.covers_destination stays
  have small := toNat_address bus.destination_lt
  unfold moved
  simp only [unread]
  rw [Memory.byte?_putTable covers, small]
  exact if_pos writes

/-- Blocks without a source leave a byte zero if one of them writes it,
and as it was if none does. The induction is on the blocks, and the last
one that writes the byte decides. -/
theorem byte?_foldl_moved (swap : Swap) {blocks : List Block}
    (unread : ∀ b ∈ blocks, b.source = none)
    (bus : ∀ b ∈ blocks, b.OnBus) (stays : ∀ b ∈ blocks, b.Stays m)
    (a : Nat) :
    ((∃ b ∈ blocks, b.WritesAt a) →
        (blocks.foldl (moved swap) m).byte? a = some 0) ∧
      ((∀ b ∈ blocks, ¬ b.WritesAt a) →
        (blocks.foldl (moved swap) m).byte? a = m.byte? a) := by
  induction blocks generalizing m with
  | nil => exact ⟨nofun, fun _ => rfl⟩
  | cons b blocks ih =>
      obtain ⟨unread₁, unread₂⟩ := List.forall_mem_cons.1 unread
      obtain ⟨bus₁, bus₂⟩ := List.forall_mem_cons.1 bus
      obtain ⟨stays₁, stays₂⟩ := List.forall_mem_cons.1 stays
      obtain ⟨zero, same⟩ := ih (m := b.moved swap m) unread₂ bus₂
        fun c mem => (stays_of_samePlace samePlace_moved).2 (stays₂ c mem)
      rw [List.foldl_cons]
      constructor
      · intro written
        by_cases later : ∃ c ∈ blocks, c.WritesAt a
        · exact zero later
        · have unwritten : ∀ c ∈ blocks, ¬ c.WritesAt a :=
            fun c mem writes => later ⟨c, mem, writes⟩
          have here : b.WritesAt a := by
            obtain ⟨c, mem, writes⟩ := written
            rcases List.mem_cons.1 mem with rfl | mem
            · exact writes
            · exact absurd writes (unwritten c mem)
          rw [same unwritten]
          exact byte?_moved_of_writesAt unread₁ bus₁ stays₁ here
      · intro unwritten
        obtain ⟨apart, unwritten⟩ := List.forall_mem_cons.1 unwritten
        rw [same unwritten]
        exact byte?_moved_of_outside bus₁ stays₁ apart

end Block

-- ============================================================== covering

/-- Units whose destination advances write every byte of the range they
cover. -/
theorem Stride.exists_writesAt {stride : Stride}
    (advances : stride.destination = true) (source : Option Nat)
    {destination count a : Nat} (low : destination ≤ a)
    (high : a < destination + count * stride.length) :
    ∃ b ∈ stride.blocks source destination count, b.WritesAt a := by
  have inside : a - destination < count * stride.length := by omega
  have pos : 0 < stride.length := by
    apply Nat.pos_of_ne_zero
    intro zero
    rw [zero, Nat.mul_zero] at inside
    exact Nat.not_lt_zero _ inside
  have number : (a - destination) / stride.length < count :=
    (Nat.div_lt_iff_lt_mul pos).2 inside
  have before := Nat.div_mul_le_self (a - destination) stride.length
  have behind := Nat.lt_div_mul_add (a := a - destination) pos
  refine ⟨_, (stride.mem_blocks source destination).2 ⟨_, number, rfl⟩, ?_⟩
  unfold Block.WritesAt Stride.destinationAfter
  rw [advances, if_pos rfl]
  constructor
  · show destination + _ ≤ a
    omega
  · show a < destination + _ + stride.length
    omega

/-- Phases whose destination advances write every byte of theirs. -/
theorem Phase.exists_writesAt {advance : Bool × Bool}
    (advances : advance.2 = true) {phases : List Phase}
    (source : Option Nat) {destination a : Nat} (low : destination ≤ a)
    (high : a < destination +
      phases.foldr (fun phase rest => phase.bytes + rest) 0) :
    ∃ b ∈ blocksFrom advance phases source destination, b.WritesAt a := by
  induction phases generalizing source destination with
  | nil =>
      rw [List.foldr_nil] at high
      omega
  | cons phase phases ih =>
      rw [List.foldr_cons, phase.bytes_eq] at high
      rw [blocksFrom]
      by_cases early : a < destination + phase.rounds * phase.unit.toNat
      · have moves : (phase.stride advance).destination = true := advances
        obtain ⟨b, mem, writes⟩ :=
          Stride.exists_writesAt moves source low early
        exact ⟨b, List.mem_append_left _ mem, writes⟩
      · have next : (phase.stride advance).destinationAfter destination
            phase.rounds = destination + phase.rounds * phase.unit.toNat := by
          unfold Stride.destinationAfter
          rw [show (phase.stride advance).destination = true from advances]
          rfl
        rw [next]
        have behind : destination + phase.rounds * phase.unit.toNat ≤ a :=
          Nat.not_lt.1 early
        obtain ⟨b, mem, writes⟩ := ih
          ((phase.stride advance).sourceAfter source phase.rounds) behind
          (by omega)
        exact ⟨b, List.mem_append_right _ mem, writes⟩

-- ================================================================= plans

namespace Plan

variable {req : Request} {cap : Capability} {plan : Plan} {m : Memory}

/-- The units of a zero fill all lie in memory if its range does. -/
theorem stays_of_holds_zeroFill (planned : req.plan cap .zeroFill = .ok plan)
    (bus : cap.maxBurstSize.toNat ≤ 7)
    (writes : m.Holds req.destination.toNat plan.bytes) :
    ∀ b ∈ plan.blocks req, b.source = none ∧ b.Stays m := by
  intro b mem
  obtain ⟨mode, -, -⟩ := ready_of_plan bus planned
  have within := within_of_mem mem
  have reads := isSome_source_of_mem mem
  rw [mode] at reads
  have unread : b.source = none :=
    Option.isNone_iff_eq_none.1 (Option.isSome_eq_false_iff.1 reads)
  refine ⟨unread, ?_, ?_⟩
  · intro s source
    rw [unread] at source
    cases source
  · exact writes.mono within.destination.1 within.destination.2

/-- A plan for a zero fill clears all bytes but the residue. -/
theorem clears (planned : req.plan cap .zeroFill = .ok plan)
    (bus : cap.maxBurstSize.toNat ≤ 7)
    (writes : m.Holds req.destination.toNat plan.bytes) :
    ∃ m', Block.moveAll req.swap (plan.blocks req) m = (m', none) ∧
      m.Clears m' req.destination.toNat plan.bytes := by
  have each := stays_of_holds_zeroFill planned bus writes
  have stays := fun b mem => (each b mem).2
  refine ⟨_, Block.moveAll_of_stays stays, ?_⟩
  intro a
  obtain ⟨zero, same⟩ := Block.byte?_foldl_moved req.swap
    (fun b mem => (each b mem).1) (fun b mem => onBus_of_mem bus planned mem)
    stays a
  by_cases inside : req.destination.toNat ≤ a ∧
      a < req.destination.toNat + plan.bytes
  · rw [if_pos inside]
    apply zero
    obtain ⟨mode, -, -⟩ := ready_of_plan bus planned
    have advances : (req.increments plan.mode).2 = true := by
      rw [mode]
      rfl
    exact Phase.exists_writesAt advances _ inside.1 inside.2
  · rw [if_neg inside]
    apply same
    intro b mem writes
    obtain ⟨low, high⟩ := (within_of_mem mem).destination
    obtain ⟨start, stop⟩ := writes
    exact inside ⟨by omega, by omega⟩

/-- A zero fill leaves nothing behind: its single beats are bytes. -/
theorem complete_zeroFill {destination size : UInt32} {security : Security}
    (planned : (Request.zeroFill cap destination size security).plan cap
      .zeroFill = .ok plan)
    (bus : cap.maxBurstSize.toNat ≤ 7) :
    plan.residue = 0 ∧ plan.bytes = size.toNat := by
  have residue : plan.residue = 0 := by
    obtain ⟨-, rfl⟩ := (Request.plan_eq_ok_iff bus).1 planned
    apply UInt32.toNat_inj.1
    show (Request.tail _ % Request.singleBytes _).toNat = 0
    rw [UInt32.toNat_mod]
    exact Nat.mod_one _
  have accounted := bytes_add_residue bus planned
  rw [residue] at accounted
  exact ⟨residue, accounted⟩

end Plan

end DmaController
