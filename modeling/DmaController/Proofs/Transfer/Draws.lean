/-
Where the bytes of a destination come from. Units whose destination
advances fill a range from low to high addresses; if none of them writes
what one of them reads, the byte at each place of the range is one that
stood in memory before, and `origin` says at which address. A standing
source gives the same unit again and again, an advancing one gives the
next unit each time, and a swap mirrors each unit in groups.

The induction is over the units and then over the phases. `Draws.trans`
carries both: what is drawn behind a drawn range is drawn from memory as
it was, because the range that was filled is not read.
-/
import DmaController.Proofs.Transfer.Clears
import DmaController.Proofs.Transfer.Copies
import DmaController.Proofs.Transfer.Journal

namespace DmaController

-- ============================================================== drawing

/-- One memory is another one after a range was filled: the byte at its
place `i` is the one that stood at `origin i`, and nothing else
changed. -/
def Memory.Draws (m m' : Memory) (destination length : Nat)
    (origin : Nat → Nat) : Prop :=
  ∀ a, m'.byte? a =
    if destination ≤ a ∧ a < destination + length then
      m.byte? (origin (a - destination))
    else m.byte? a

namespace Memory

variable {m m₁ m₂ : Memory} {destination a b : Nat} {origin next : Nat → Nat}

theorem draws_zero (m : Memory) (destination : Nat) (origin : Nat → Nat) :
    m.Draws m destination 0 origin := by
  intro x
  rw [if_neg (by omega)]

theorem Draws.congr (h : m.Draws m₁ destination a origin)
    (same : ∀ i < a, origin i = next i) : m.Draws m₁ destination a next := by
  intro x
  rw [h x]
  split
  next inside => rw [same _ (by omega)]
  next => rfl

/-- A range and the range behind it, drawn from where the first one did
not write. -/
theorem Draws.trans (first : m.Draws m₁ destination a origin)
    (second : m₁.Draws m₂ (destination + a) b next)
    (unread : ∀ i < b,
      ¬ (destination ≤ next i ∧ next i < destination + a)) :
    m.Draws m₂ destination (a + b)
      (fun i => if i < a then origin i else next (i - a)) := by
  intro x
  show m₂.byte? x = if destination ≤ x ∧ x < destination + (a + b) then
    m.byte? (if x - destination < a then origin (x - destination)
      else next (x - destination - a))
    else m.byte? x
  rw [second x]
  by_cases later : destination + a ≤ x ∧ x < destination + a + b
  · have behind : ¬ x - destination < a := by omega
    have place : x - (destination + a) = x - destination - a := by omega
    rw [if_pos later, first, if_neg (unread _ (by omega)), if_pos (by omega),
      if_neg behind, place]
  · rw [if_neg later, first]
    by_cases earlier : destination ≤ x ∧ x < destination + a
    · rw [if_pos earlier, if_pos (by omega), if_pos (by omega)]
    · rw [if_neg earlier, if_neg (by omega)]

end Memory

-- ============================================================== mirroring

/-- The place that stands at place `i` when a sequence of some length is
reversed in groups; the last group may be shorter. -/
def mirror (group length i : Nat) : Nat :=
  let first := i / group * group
  first + (min group (length - first) - 1 - (i - first))

theorem mirror_lt {group length i : Nat} (pos : 0 < group) (inside : i < length) :
    mirror group length i < length := by
  have low := Nat.div_mul_le_self i group
  have high := Nat.lt_div_mul_add (a := i) pos
  unfold mirror
  simp only
  omega

/-- In whole groups, each place is mirrored in its own group. -/
theorem mirror_of_dvd {group length i : Nat} (whole : group ∣ length)
    (inside : i < length) :
    mirror group length i = i / group * group + (group - 1 - i % group) := by
  obtain ⟨count, rfl⟩ := whole
  have pos : 0 < group := Nat.pos_of_ne_zero fun zero => by simp [zero] at inside
  have split := Nat.div_add_mod i group
  have small : i / group < count :=
    (Nat.div_lt_iff_lt_mul pos).2 (Nat.mul_comm .. ▸ inside)
  have room : group * (i / group) + group ≤ group * count := by
    rw [← Nat.mul_succ]
    exact Nat.mul_le_mul_left group small
  rw [Nat.mul_comm] at split room
  unfold mirror
  simp only
  omega

theorem getElem?_reverseGroups {group : Nat} (pos : 0 < group)
    (bytes : List UInt8) {i : Nat} (inside : i < bytes.length) :
    (Channel.reverseGroups group bytes)[i]? =
      bytes[mirror group bytes.length i]? := by
  fun_induction Channel.reverseGroups group bytes generalizing i with
  | case1 bytes ended =>
      rcases ended with zero | rfl
      · exact absurd zero (Nat.ne_of_gt pos)
      · cases inside
  | case2 bytes more ih =>
      by_cases first : i < group
      · have taken : i < (bytes.take group).length := by
          rw [List.length_take]
          omega
        have place : mirror group bytes.length i =
            (bytes.take group).length - 1 - i := by
          rw [List.length_take]
          simp [mirror, Nat.div_eq_of_lt first]
        have short := List.length_take_le group bytes
        rw [List.getElem?_append_left (by rwa [List.length_reverse]),
          List.getElem?_reverse taken, place, List.getElem?_take_of_lt (by omega)]
      · have taken : (bytes.take group).reverse.length = group := by
          rw [List.length_reverse, List.length_take]
          omega
        have next : i / group = (i - group) / group + 1 :=
          Nat.div_eq_sub_div pos (by omega)
        have place : mirror group bytes.length i =
            group + mirror group (bytes.length - group) (i - group) := by
          unfold mirror
          simp only [next, Nat.add_mul, Nat.one_mul]
          omega
        have behind : i - group < (bytes.drop group).length := by
          rw [List.length_drop]
          omega
        rw [List.getElem?_append_right (by omega), taken, ih behind,
          List.getElem?_drop, List.length_drop, place]

/-- The bytes in a group of a swap; without one, a group is a byte. -/
def Swap.width (swap : Swap) : Nat :=
  1 <<< swap.code

theorem Swap.width_pos (swap : Swap) : 0 < swap.width := by
  cases swap <;> decide

/-- The byte that a swap puts at a place of a unit. -/
theorem getElem?_arrange (swap : Swap) (bytes : List UInt8) {i : Nat}
    (inside : i < bytes.length) :
    (swap.arrange bytes)[i]? = bytes[mirror swap.width bytes.length i]? := by
  unfold Swap.arrange
  split
  next plain =>
    subst plain
    have place := mirror_of_dvd (Nat.one_dvd bytes.length) inside
    rw [Nat.div_one, Nat.mul_one, Nat.mod_one] at place
    exact congrArg (bytes[·]?) place.symm
  next => exact getElem?_reverseGroups swap.width_pos bytes inside

-- =============================================================== units

/-- The block reads the byte at an address. -/
def Block.ReadsAt (b : Block) (a : Nat) : Prop :=
  ∃ s ∈ b.source, s ≤ a ∧ a < s + b.length

theorem Block.draws_moved {m : Memory} (swap : Swap)
    {source destination length : Nat}
    (bus : OnBus ⟨some source, destination, length⟩)
    (stays : Stays m ⟨some source, destination, length⟩) :
    m.Draws (moved swap m ⟨some source, destination, length⟩) destination
      length (fun i => source + mirror swap.width length i) := by
  intro a
  by_cases inside : destination ≤ a ∧ a < destination + length
  · have put : moved swap m ⟨some source, destination, length⟩ =
        m.put (UInt64.ofNat destination)
          (swap.arrange (m.load (source - m.base.toNat) length)) := rfl
    have covers : m.Covers (UInt64.ofNat destination) length :=
      bus.covers_destination stays
    have small : (UInt64.ofNat destination).toNat = destination :=
      toNat_address bus.destination_lt
    have count : (swap.arrange
        (m.load (source - m.base.toNat) length)).length = length := by
      simp
    rw [← count] at covers
    rw [put, Memory.byte?_put covers, small, count, if_pos inside,
      if_pos inside]
    rw [getElem?_arrange swap _ (by rw [Memory.length_load]; omega),
      Memory.length_load]
    exact Memory.getElem?_load (stays.1 source rfl)
      (mirror_lt swap.width_pos (by omega))
  · rw [byte?_moved_of_outside bus stays inside, if_neg inside]

namespace Stride

variable {stride : Stride} {swap : Swap} {source destination count i : Nat}

/-- The address that the byte at a place of the destination comes
from. -/
def origin (stride : Stride) (swap : Swap) (source i : Nat) : Nat :=
  source + (if stride.source then i / stride.length * stride.length else 0) +
    mirror swap.width stride.length (i % stride.length)

/-- Every byte of the destination comes from what some unit reads. -/
theorem exists_readsAt (swap : Swap) (destination : Nat)
    (inside : i < count * stride.length) :
    ∃ b ∈ stride.blocks (some source) destination count,
      b.ReadsAt (stride.origin swap source i) := by
  have pos : 0 < stride.length :=
    Nat.pos_of_ne_zero fun zero => by simp [zero] at inside
  have number : i / stride.length < count :=
    (Nat.div_lt_iff_lt_mul pos).2 inside
  have place := mirror_lt swap.width_pos (Nat.mod_lt i pos)
  refine ⟨_, (stride.mem_blocks _ destination).2 ⟨_, number, rfl⟩, _, rfl, ?_, ?_⟩
  · exact Nat.le_add_right ..
  · exact Nat.add_lt_add_left place _

/-- Units whose destination advances draw their range. -/
theorem draws {m : Memory} (swap : Swap)
    (advances : stride.destination = true) (count : Nat)
    (bus : ∀ b ∈ stride.blocks (some source) destination count, b.OnBus)
    (stays : ∀ b ∈ stride.blocks (some source) destination count, b.Stays m)
    (apart : Block.Apart (stride.blocks (some source) destination count)) :
    m.Draws
      ((stride.blocks (some source) destination count).foldl
        (Block.moved swap) m)
      destination (count * stride.length) (stride.origin swap source) := by
  induction count generalizing m source destination with
  | zero =>
      rw [Nat.zero_mul]
      exact Memory.draws_zero m destination _
  | succ count ih =>
      rw [blocks] at bus stays apart ⊢
      obtain ⟨bus₁, bus₂⟩ := List.forall_mem_cons.1 bus
      obtain ⟨stays₁, stays₂⟩ := List.forall_mem_cons.1 stays
      rw [← List.singleton_append] at apart
      obtain ⟨-, apart₂, unread⟩ := apart.append
      have next : stride.destinationAfter destination 1 =
          destination + stride.length := by
        rw [destinationAfter, if_pos advances, Nat.one_mul]
      rw [next] at bus₂ stays₂ apart₂ unread ⊢
      have first := Block.draws_moved swap bus₁ stays₁
      have rest := ih (m := Block.moved swap m ⟨some source, destination,
          stride.length⟩) bus₂ (fun b hb =>
        (Block.stays_of_samePlace Block.samePlace_moved).2 (stays₂ b hb)) apart₂
      rw [Nat.add_mul, Nat.one_mul, Nat.add_comm (count * stride.length)]
      refine (first.trans rest fun i hi written => ?_).congr fun i hi => ?_
      · obtain ⟨c, mem, s, hs, low, high⟩ :=
          exists_readsAt swap (destination + stride.length) hi
        exact unread _ (List.mem_singleton_self _) c mem s hs _ low high written
      · have pos := bus₁.pos
        by_cases early : i < stride.length
        · simp only [if_pos early, origin, Nat.div_eq_of_lt early, Nat.zero_mul,
            ite_self, Nat.add_zero, Nat.mod_eq_of_lt early]
        · have number := Nat.div_eq_sub_div pos (Nat.not_lt.1 early)
          have place := Nat.mod_eq_sub_mod (Nat.not_lt.1 early)
          simp only [if_neg early, origin, number, place, Nat.add_mul,
            Nat.one_mul]
          split <;> omega

end Stride

-- =============================================================== phases

namespace Phase

variable {advance : Bool × Bool} {swap : Swap} {source destination i : Nat}
  {phases : List Phase}

/-- The address that the byte at a place of the destination of several
phases comes from. -/
def origin (advance : Bool × Bool) (swap : Swap) :
    List Phase → (source i : Nat) → Nat
  | [], source, i => source + i
  | phase :: phases, source, i =>
    if i < phase.bytes then (phase.stride advance).origin swap source i
    else
      origin advance swap phases
        (source + if advance.1 then phase.bytes else 0) (i - phase.bytes)

theorem sourceAfter_rounds (phase : Phase) (advance : Bool × Bool)
    (source : Nat) :
    (phase.stride advance).sourceAfter (some source) phase.rounds =
      some (source + if advance.1 then phase.bytes else 0) := by
  rw [phase.bytes_eq]
  rfl

theorem exists_readsAt (swap : Swap) (destination : Nat)
    (inside : i < phases.foldr (fun phase rest => phase.bytes + rest) 0) :
    ∃ b ∈ blocksFrom advance phases (some source) destination,
      b.ReadsAt (origin advance swap phases source i) := by
  induction phases generalizing source destination i with
  | nil => cases inside
  | cons phase phases ih =>
      rw [List.foldr_cons] at inside
      rw [blocksFrom, origin]
      split
      next early =>
        rw [phase.bytes_eq] at early
        obtain ⟨b, mem, reads⟩ := Stride.exists_readsAt swap destination
          (show i < phase.rounds * (phase.stride advance).length from early)
        exact ⟨b, List.mem_append_left _ mem, reads⟩
      next late =>
        rw [sourceAfter_rounds]
        obtain ⟨b, mem, reads⟩ := ih (i := i - phase.bytes)
          ((phase.stride advance).destinationAfter destination phase.rounds)
          (by omega)
        exact ⟨b, List.mem_append_right _ mem, reads⟩

/-- Phases whose destination advances draw their range. -/
theorem draws {m : Memory} (swap : Swap) (advances : advance.2 = true)
    (bus : ∀ b ∈ blocksFrom advance phases (some source) destination, b.OnBus)
    (stays : ∀ b ∈ blocksFrom advance phases (some source) destination,
      b.Stays m)
    (apart : Block.Apart
      (blocksFrom advance phases (some source) destination)) :
    m.Draws
      ((blocksFrom advance phases (some source) destination).foldl
        (Block.moved swap) m)
      destination (phases.foldr (fun phase rest => phase.bytes + rest) 0)
      (origin advance swap phases source) := by
  induction phases generalizing m source destination with
  | nil => exact Memory.draws_zero m destination _
  | cons phase phases ih =>
      have moves : (phase.stride advance).destination = true := advances
      have next : (phase.stride advance).destinationAfter destination
          phase.rounds = destination + phase.bytes := by
        rw [Stride.destinationAfter, if_pos moves, phase.bytes_eq]
        rfl
      rw [blocksFrom] at bus stays apart ⊢
      simp only [sourceAfter_rounds, next] at bus stays apart ⊢
      obtain ⟨bus₁, bus₂⟩ := List.forall_mem_append.1 bus
      obtain ⟨stays₁, stays₂⟩ := List.forall_mem_append.1 stays
      obtain ⟨apart₁, apart₂, unread⟩ := apart.append
      have first := Stride.draws swap moves phase.rounds bus₁ stays₁ apart₁
      have bytes : phase.rounds * (phase.stride advance).length = phase.bytes :=
        phase.bytes_eq.symm
      rw [bytes] at first
      have place := Block.samePlace_foldl swap
        ((phase.stride advance).blocks (some source) destination phase.rounds) m
      have rest := ih bus₂
        (fun b hb => (Block.stays_of_samePlace place).2 (stays₂ b hb)) apart₂
      have written : ∀ x, destination ≤ x → x < destination + phase.bytes →
          ∃ b ∈ (phase.stride advance).blocks (some source) destination
            phase.rounds, b.WritesAt x := by
        intro x low high
        rw [← bytes] at high
        exact Stride.exists_writesAt moves (some source) low high
      rw [List.foldr_cons, List.foldl_append]
      refine first.trans rest fun i hi filled => ?_
      obtain ⟨b, memB, low, high⟩ := written _ filled.1 filled.2
      obtain ⟨c, memC, s, hs, start, stop⟩ :=
        exists_readsAt swap (destination + phase.bytes) hi
      exact unread b memB c memC s hs _ start stop ⟨low, high⟩

end Phase

end DmaController
