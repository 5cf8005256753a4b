/-
A transfer as the list of its units. A block is one round of a loop
body: the bytes it takes, if it takes any, and the bytes it writes.
Blocks are moved one after the other, each as a whole, until one of them
does not lie in memory; `moveAll` gives the memory that is left behind
and the fault of the block that ended the movement.

This is the meaning that a program is measured against. It knows nothing
of loops, instructions or registers: the blocks of a plan are its rounds
in order, at addresses that advance by the unit on the sides that
advance.
-/
import Mathlib.Algebra.Ring.Nat
import DmaController.Controller.Channel
import DmaController.Proofs.Memory.View
import DmaController.Transfer.Plan

namespace DmaController

-- ============================================================== blocks

/-- One unit of a transfer. -/
structure Block where
  /-- Where the bytes are read; none if zeros are written. -/
  source : Option Nat
  destination : Nat
  length : Nat
  deriving DecidableEq

/-- The order in which a swap writes the bytes of a unit. -/
def Swap.arrange (swap : Swap) (bytes : List UInt8) : List UInt8 :=
  if swap = .none then bytes else Channel.reverseGroups (1 <<< swap.code) bytes

namespace Block

/-- Both ranges of the block lie in memory. -/
def Stays (m : Memory) (b : Block) : Prop :=
  (∀ s ∈ b.source, m.Holds s b.length) ∧ m.Holds b.destination b.length

instance (m : Memory) (address length : Nat) :
    Decidable (m.Holds address length) :=
  inferInstanceAs (Decidable (∀ i < length, _))

instance (m : Memory) (b : Block) : Decidable (b.Stays m) :=
  inferInstanceAs (Decidable (_ ∧ _))

/-- Why a block cannot be moved: its source is looked at first. -/
def refusal? (m : Memory) (b : Block) : Option ChannelFault :=
  if ∀ s ∈ b.source, m.Holds s b.length then
    if m.Holds b.destination b.length then none else some .writeError
  else
    some .readError

/-- The memory after a block was moved. -/
def moved (swap : Swap) (m : Memory) (b : Block) : Memory :=
  match b.source with
  | some s =>
    m.put (UInt64.ofNat b.destination)
      (swap.arrange (m.load (s - m.base.toNat) b.length))
  | none => m.putTable (UInt64.ofNat b.destination) b.length fun _ => 0

/-- Moves blocks in order up to the first one that does not lie in
memory: the memory they leave, and the fault of that one. -/
def moveAll (swap : Swap) : List Block → Memory → Memory × Option ChannelFault
  | [], m => (m, none)
  | b :: blocks, m =>
    match b.refusal? m with
    | some cause => (m, some cause)
    | none => moveAll swap blocks (b.moved swap m)

/-- The block lies below the end of the 32-bit bus and is not empty. -/
structure OnBus (b : Block) : Prop where
  pos : 0 < b.length
  source : ∀ s ∈ b.source, s + b.length ≤ UInt32.size
  destination : b.destination + b.length ≤ UInt32.size

/-- The block writes nothing in a range of addresses. -/
def SparesRange (b : Block) (first length : Nat) : Prop :=
  ∀ a, first ≤ a → a < first + length →
    ¬ (b.destination ≤ a ∧ a < b.destination + b.length)

end Block

-- ===================================================== blocks of a plan

/-- How one phase steps through memory: the bytes of a unit, and which
of its two addresses advance. -/
structure Stride where
  length : Nat
  source : Bool
  destination : Bool

namespace Stride

/-- The source address after some units. -/
def sourceAfter (stride : Stride) (source : Option Nat) (count : Nat) :
    Option Nat :=
  source.map (· + if stride.source then count * stride.length else 0)

/-- The destination address after some units. -/
def destinationAfter (stride : Stride) (destination count : Nat) : Nat :=
  destination + if stride.destination then count * stride.length else 0

/-- The next `count` units from a pair of addresses on. -/
def blocks (stride : Stride) (source : Option Nat) (destination : Nat) :
    (count : Nat) → List Block
  | 0 => []
  | count + 1 =>
    ⟨source, destination, stride.length⟩ ::
      stride.blocks (stride.sourceAfter source 1)
        (stride.destinationAfter destination 1) count

end Stride

/-- How often a phase runs its body. -/
def Phase.rounds (phase : Phase) : Nat :=
  (phase.loops.map LoopNest.iterations).sum

/-- The stride of a phase. -/
def Phase.stride (phase : Phase) (advance : Bool × Bool) : Stride :=
  ⟨phase.unit.toNat, advance.1, advance.2⟩

/-- The blocks of phases that start at a pair of addresses. -/
def Phase.blocksFrom (advance : Bool × Bool) :
    List Phase → (source : Option Nat) → (destination : Nat) → List Block
  | [], _, _ => []
  | phase :: phases, source, destination =>
    let stride := phase.stride advance
    stride.blocks source destination phase.rounds ++
      blocksFrom advance phases (stride.sourceAfter source phase.rounds)
        (stride.destinationAfter destination phase.rounds)

/-- Where a transfer starts to read; a zero fill reads nothing. -/
def Request.origin (req : Request) : Mode → Option Nat
  | .copy => some req.source.toNat
  | .zeroFill => none

/-- The blocks of a plan, in the order they are moved. -/
def Plan.blocks (plan : Plan) (req : Request) : List Block :=
  Phase.blocksFrom (req.increments plan.mode) plan.phases (req.origin plan.mode)
    req.destination.toNat

-- ============================================================== moving

namespace Block

variable {m : Memory} {b : Block} {swap : Swap}

/-- A block is refused exactly if it leaves memory. -/
theorem refusal?_eq_none_iff : b.refusal? m = none ↔ b.Stays m := by
  unfold refusal? Stays
  split
  next reads =>
    split
    next writes => exact ⟨fun _ => ⟨reads, writes⟩, fun _ => rfl⟩
    next leaves => exact ⟨nofun, fun stays => absurd stays.2 leaves⟩
  next leaves => exact ⟨nofun, fun stays => absurd stays.1 leaves⟩

/-- A moved block does not move memory. -/
theorem samePlace_moved : m.SamePlace (b.moved swap m) := by
  unfold moved
  cases b.source with
  | none => exact Memory.samePlace_putTable ..
  | some s => exact Memory.samePlace_put ..

/-- Whether a block lies in memory does not depend on what is in it. -/
theorem stays_of_samePlace {m' : Memory} (h : m.SamePlace m') :
    b.Stays m' ↔ b.Stays m := by
  simp only [Stays, h.holds_iff]

theorem samePlace_moveAll (blocks : List Block) (m : Memory) :
    m.SamePlace (moveAll swap blocks m).1 := by
  induction blocks generalizing m with
  | nil => exact ⟨rfl, rfl⟩
  | cons b blocks ih =>
      rw [moveAll]
      cases b.refusal? m with
      | some cause => exact ⟨rfl, rfl⟩
      | none => exact samePlace_moved.trans (ih _)

theorem samePlace_of_moveAll {m' : Memory} {blocks : List Block}
    {fault : Option ChannelFault}
    (h : moveAll swap blocks m = (m', fault)) : m.SamePlace m' := by
  have place : m.SamePlace (moveAll swap blocks m).1 := samePlace_moveAll ..
  rwa [h] at place

theorem moveAll_append (first second : List Block) (m : Memory) :
    moveAll swap (first ++ second) m =
      match moveAll swap first m with
      | (m', none) => moveAll swap second m'
      | (m', some cause) => (m', some cause) := by
  induction first generalizing m with
  | nil => rfl
  | cons b first ih =>
      simp only [List.cons_append, moveAll]
      cases b.refusal? m with
      | some cause => rfl
      | none => exact ih _

/-- A movement ends early exactly if one of its blocks leaves memory. -/
theorem moveAll_faults_iff (swap : Swap) (blocks : List Block) (m : Memory) :
    (moveAll swap blocks m).2 ≠ none ↔ ∃ b ∈ blocks, ¬ b.Stays m := by
  induction blocks generalizing m with
  | nil => simp [moveAll]
  | cons b blocks ih =>
      cases refused : b.refusal? m with
      | some cause =>
          have leaves : ¬ b.Stays m := by
            rw [← refusal?_eq_none_iff, refused]
            exact Option.some_ne_none cause
          simp [moveAll, refused, leaves]
      | none =>
          have stays := refusal?_eq_none_iff.1 refused
          simp only [moveAll, refused, ih, stays_of_samePlace samePlace_moved,
            List.mem_cons, exists_eq_or_imp, stays, not_true_eq_false, false_or]

/-- Blocks that all lie in memory are all moved. -/
theorem moveAll_of_stays {blocks : List Block} (h : ∀ b ∈ blocks, b.Stays m) :
    moveAll swap blocks m = (blocks.foldl (moved swap) m, none) := by
  induction blocks generalizing m with
  | nil => rfl
  | cons b blocks ih =>
      obtain ⟨here, later⟩ := List.forall_mem_cons.1 h
      rw [moveAll, refusal?_eq_none_iff.2 here]
      exact ih fun c hc => (stays_of_samePlace samePlace_moved).2 (later c hc)

/-- A movement that ends early has moved the blocks in front of the one
that was refused. -/
theorem moveAll_of_fault {blocks : List Block} {m' : Memory}
    {cause : ChannelFault} (h : moveAll swap blocks m = (m', some cause)) :
    ∃ before b after, blocks = before ++ b :: after ∧
      (∀ c ∈ before, c.Stays m) ∧
      b.refusal? m = some cause ∧ m' = before.foldl (moved swap) m := by
  induction blocks generalizing m with
  | nil => cases h
  | cons b blocks ih =>
      rw [moveAll] at h
      cases refused : b.refusal? m with
      | some other =>
          rw [refused] at h
          cases h
          exact ⟨[], b, blocks, rfl, nofun, refused, rfl⟩
      | none =>
          rw [refused] at h
          obtain ⟨before, c, after, rfl, stays, refusal, rfl⟩ := ih h
          refine ⟨b :: before, c, after, rfl, List.forall_mem_cons.2
            ⟨refusal?_eq_none_iff.1 refused, fun c' hc => ?_⟩, ?_, rfl⟩
          · exact (stays_of_samePlace samePlace_moved).1 (stays c' hc)
          · unfold refusal? at refusal ⊢
            simpa only [(@samePlace_moved m b swap).holds_iff] using refusal

/-- An arranged unit is as long as it was. -/
@[simp] theorem length_reverseGroups (size : Nat) (bytes : List UInt8) :
    (Channel.reverseGroups size bytes).length = bytes.length := by
  fun_induction Channel.reverseGroups size bytes with
  | case1 => rfl
  | case2 bytes h ih =>
      rw [List.length_append, List.length_reverse, ih, ← List.length_append,
        List.take_append_drop]

@[simp] theorem length_arrange (bytes : List UInt8) :
    (swap.arrange bytes).length = bytes.length := by
  unfold Swap.arrange
  split
  · rfl
  · exact length_reverseGroups _ _

theorem toNat_address {a : Nat} (h : a < UInt32.size) :
    (UInt64.ofNat a).toNat = a :=
  UInt64.toNat_ofNat_of_lt' (Nat.lt_trans h (by decide))

theorem OnBus.destination_lt (h : b.OnBus) : b.destination < UInt32.size := by
  have := h.pos
  have := h.destination
  omega

theorem OnBus.covers_destination (h : b.OnBus) (hs : b.Stays m) :
    m.Covers (UInt64.ofNat b.destination) b.length := by
  rw [Memory.covers_iff_holds h.pos, toNat_address h.destination_lt]
  exact hs.2

/-- A moved block changes nothing outside its destination. -/
theorem byte?_moved_of_outside (h : b.OnBus) (hs : b.Stays m) {a : Nat}
    (ha : ¬ (b.destination ≤ a ∧ a < b.destination + b.length)) :
    (b.moved swap m).byte? a = m.byte? a := by
  have covers := h.covers_destination hs
  have small := toNat_address h.destination_lt
  unfold moved
  cases b.source with
  | none => simp only [Memory.byte?_putTable covers, small, if_neg ha]
  | some s =>
      have length : (swap.arrange (m.load (s - m.base.toNat) b.length)).length =
          b.length := by simp
      rw [← length] at covers
      simp only [Memory.byte?_put covers, small, length, if_neg ha]

end Block

-- =================================================== strides and rounds

namespace Stride

variable (stride : Stride) (source : Option Nat) (destination : Nat)

@[simp] theorem sourceAfter_zero : stride.sourceAfter source 0 = source := by
  simp [sourceAfter]

@[simp] theorem destinationAfter_zero :
    stride.destinationAfter destination 0 = destination := by
  simp [destinationAfter]

theorem sourceAfter_add (a b : Nat) :
    stride.sourceAfter (stride.sourceAfter source a) b =
      stride.sourceAfter source (a + b) := by
  cases source with
  | none => rfl
  | some s =>
      simp only [sourceAfter, Option.map_some, Option.some.injEq]
      split
      · rw [Nat.add_mul, Nat.add_assoc]
      · rfl

theorem destinationAfter_add (a b : Nat) :
    stride.destinationAfter (stride.destinationAfter destination a) b =
      stride.destinationAfter destination (a + b) := by
  simp only [destinationAfter]
  split
  · rw [Nat.add_mul, Nat.add_assoc]
  · rfl

/-- More rounds are rounds behind rounds. -/
theorem blocks_add (a b : Nat) :
    stride.blocks source destination (a + b) =
      stride.blocks source destination a ++
        stride.blocks (stride.sourceAfter source a)
          (stride.destinationAfter destination a) b := by
  induction a generalizing source destination with
  | zero => simp [blocks]
  | succ a ih =>
      rw [Nat.add_right_comm, blocks, ih, blocks, List.cons_append,
        sourceAfter_add, destinationAfter_add, Nat.add_comm 1 a]

/-- The units of a stride, by their number. -/
theorem mem_blocks {count : Nat} {b : Block} :
    b ∈ stride.blocks source destination count ↔
      ∃ k < count,
        b = ⟨stride.sourceAfter source k, stride.destinationAfter destination k,
          stride.length⟩ := by
  induction count generalizing source destination with
  | zero => simp [blocks]
  | succ count ih =>
      rw [blocks, List.mem_cons, ih]
      constructor
      · intro mem
        rcases mem with rfl | ⟨k, hk, rfl⟩
        · exact ⟨0, Nat.succ_pos _,
            by rw [sourceAfter_zero, destinationAfter_zero]⟩
        · refine ⟨k + 1, Nat.succ_lt_succ hk, ?_⟩
          rw [sourceAfter_add, destinationAfter_add, Nat.add_comm 1 k]
      · intro numbered
        obtain ⟨k, hk, rfl⟩ := numbered
        cases k with
        | zero => exact Or.inl (by rw [sourceAfter_zero, destinationAfter_zero])
        | succ k =>
            refine Or.inr ⟨k, Nat.lt_of_succ_lt_succ hk, ?_⟩
            rw [sourceAfter_add, destinationAfter_add, Nat.add_comm 1 k]

end Stride

-- ======================================================= ranges of units

/-- A block takes its bytes from one range and writes them to another
one, both of the same length. -/
structure Block.Within (b : Block) (source : Option Nat)
    (destination total : Nat) : Prop where
  reads : b.source.isSome = source.isSome
  source : ∀ s ∈ b.source, ∀ first ∈ source,
    first ≤ s ∧ s + b.length ≤ first + total
  destination : destination ≤ b.destination ∧
    b.destination + b.length ≤ destination + total

/-- An advancing or standing address stays within what the units
cover. -/
theorem Stride.advance_le {k count : Nat} (length : Nat) (advances : Bool)
    (h : k < count) :
    (if advances then k * length else 0) + length ≤ count * length := by
  have next : (k + 1) * length ≤ count * length := Nat.mul_le_mul_right _ h
  rw [Nat.add_mul, Nat.one_mul] at next
  split <;> omega

/-- The units of a stride lie within the range it covers. -/
theorem Stride.within_of_mem {stride : Stride} {source : Option Nat}
    {destination count : Nat} {b : Block}
    (h : b ∈ stride.blocks source destination count) :
    b.Within source destination (count * stride.length) := by
  obtain ⟨k, hk, rfl⟩ := (stride.mem_blocks source destination).1 h
  refine ⟨by simp [Stride.sourceAfter], ?_, ?_⟩
  · intro s hs first hf
    cases hf
    cases hs
    have reach := Stride.advance_le stride.length stride.source hk
    constructor <;> simp only <;> omega
  · have reach := Stride.advance_le stride.length stride.destination hk
    simp only [Stride.destinationAfter]
    constructor <;> omega

theorem Phase.bytes_eq (phase : Phase) :
    phase.bytes = phase.rounds * phase.unit.toNat := by
  unfold Phase.bytes Phase.rounds
  induction phase.loops with
  | nil => exact (Nat.zero_mul _).symm
  | cons nest loops ih =>
      rw [List.foldr_cons, ih, List.map_cons, List.sum_cons, Nat.add_mul]

/-- The blocks of phases lie within the range the phases cover. -/
theorem Phase.within_of_mem {advance : Bool × Bool} {phases : List Phase}
    {source : Option Nat} {destination : Nat} {b : Block}
    (h : b ∈ blocksFrom advance phases source destination) :
    b.Within source destination
      (phases.foldr (fun phase rest => phase.bytes + rest) 0) := by
  induction phases generalizing source destination with
  | nil => cases h
  | cons phase phases ih =>
      have bytes := phase.bytes_eq
      rw [List.foldr_cons]
      rcases List.mem_append.1 h with h | h
      · have inside := Stride.within_of_mem h
        simp only [Phase.stride, ← bytes] at inside
        refine ⟨inside.reads, fun s hs first hf => ?_, inside.destination.1, ?_⟩
        · have := inside.source s hs first hf
          omega
        · have := inside.destination.2
          omega
      · have inside := ih h
        refine ⟨inside.reads.trans (by simp [Stride.sourceAfter]),
          fun s hs first hf => ?_, ?_⟩
        · cases hf
          have := inside.source s hs _ rfl
          simp only [Phase.stride, ← bytes] at this
          split at this <;> omega
        · have := inside.destination
          simp only [Phase.stride, Stride.destinationAfter, ← bytes] at this
          split at this <;> omega

end DmaController
