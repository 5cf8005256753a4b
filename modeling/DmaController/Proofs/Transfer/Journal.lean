/-
The accesses that move blocks. A block with a source is one load and one
store of the same bytes, a block without one is a store of zeros; blocks
behind each other are their accesses in order, each in the memory that the
ones before it have left.

If no block writes what one of them reads, the accesses are those of the
blocks in memory as it was (`journal_of_apart`), and what they have
written can be read off the memory they started with.
-/
import DmaController.Proofs.Controller.Moves
import DmaController.Proofs.Memory.Agreement
import DmaController.Proofs.Transfer.Blocks

namespace DmaController.Block

/-- The accesses that move a block. -/
def dataMoves (swap : Swap) (m : Memory) (b : Block) : List DataMove :=
  match b.source with
  | some s =>
    let bytes := m.load (s - m.base.toNat) b.length
    [.load (UInt32.ofNat s) bytes,
      .store (UInt32.ofNat b.destination) bytes (swap.arrange bytes)]
  | none => [.clear (UInt32.ofNat b.destination) b.length]

/-- The accesses that move blocks, one block after the other. -/
def journal (swap : Swap) : List Block → Memory → List DataMove
  | [], _ => []
  | b :: blocks, m => b.dataMoves swap m ++ journal swap blocks (b.moved swap m)

/-- The bytes that a block with a source moves. -/
def unit (m : Memory) (b : Block) : List UInt8 :=
  m.load (b.source.getD 0 - m.base.toNat) b.length

/-- No block writes what one of them reads. -/
def Apart (blocks : List Block) : Prop :=
  ∀ b ∈ blocks, ∀ c ∈ blocks, ∀ s ∈ c.source, b.SparesRange s c.length

variable {swap : Swap} {m : Memory} {b c : Block} {blocks : List Block}

theorem journal_append {first : List Block} {m' : Memory}
    (h : moveAll swap first m = (m', none)) (second : List Block) :
    journal swap (first ++ second) m =
      journal swap first m ++ journal swap second m' := by
  induction first generalizing m with
  | nil =>
      cases h
      rfl
  | cons b first ih =>
      rw [moveAll] at h
      cases refused : b.refusal? m with
      | some cause =>
          rw [refused] at h
          cases h
      | none =>
          rw [refused] at h
          rw [List.cons_append, journal, journal, ih h, List.append_assoc]

-- ========================================================= blocks apart

theorem Apart.append {first second : List Block}
    (h : Apart (first ++ second)) :
    Apart first ∧ Apart second ∧
      ∀ b ∈ first, ∀ c ∈ second, ∀ s ∈ c.source, b.SparesRange s c.length := by
  refine ⟨fun b hb c hc => ?_, fun b hb c hc => ?_, fun b hb c hc => ?_⟩
  · exact h b (List.mem_append_left _ hb) c (List.mem_append_left _ hc)
  · exact h b (List.mem_append_right _ hb) c (List.mem_append_right _ hc)
  · exact h b (List.mem_append_left _ hb) c (List.mem_append_right _ hc)

@[simp] theorem length_unit (m : Memory) (b : Block) :
    (b.unit m).length = b.length :=
  Memory.length_load ..

/-- A block that is moved leaves alone what a block apart from it
moves. -/
theorem dataMoves_moved (bus : b.OnBus) (stays : b.Stays m)
    (held : c.Stays m)
    (apart : ∀ s ∈ c.source, b.SparesRange s c.length) :
    c.dataMoves swap (b.moved swap m) = c.dataMoves swap m := by
  unfold dataMoves
  cases source : c.source with
  | none => rfl
  | some s =>
      have agree : Memory.AgreeOn (fun a => s ≤ a ∧ a < s + c.length) m
          (b.moved swap m) :=
        ⟨samePlace_moved, fun a inside => byte?_moved_of_outside bus stays
          (apart s source a inside.1 inside.2)⟩
      simp only [agree.load (held.1 s source) fun a low high => ⟨low, high⟩]

/-- Blocks that write nothing they read move what stood there before any
of them was moved. -/
theorem journal_of_apart (bus : ∀ b ∈ blocks, b.OnBus)
    (stays : ∀ b ∈ blocks, b.Stays m) (apart : Apart blocks) :
    journal swap blocks m = blocks.flatMap (dataMoves swap m) := by
  induction blocks generalizing m with
  | nil => rfl
  | cons b blocks ih =>
      rw [← List.singleton_append] at apart
      obtain ⟨-, apart₂, unread⟩ := apart.append
      obtain ⟨bus₁, bus₂⟩ := List.forall_mem_cons.1 bus
      obtain ⟨stays₁, stays₂⟩ := List.forall_mem_cons.1 stays
      rw [journal, List.flatMap_cons, ih bus₂ (fun c mem =>
        (stays_of_samePlace samePlace_moved).2 (stays₂ c mem)) apart₂]
      refine congrArg (b.dataMoves swap m ++ List.flatten ·)
        (List.map_congr_left fun c mem => ?_)
      exact dataMoves_moved bus₁ stays₁ (stays₂ c mem)
        (unread b (List.mem_singleton_self b) c mem)

/-- What copying blocks without a swap writes. -/
theorem written_dataMoves (reads : ∀ b ∈ blocks, b.source.isSome) :
    (blocks.flatMap (dataMoves .none m)).filterMap DataMove.written? =
      blocks.map fun b => (UInt32.ofNat b.destination, b.unit m) := by
  induction blocks with
  | nil => rfl
  | cons b blocks ih =>
      obtain ⟨reads₁, reads₂⟩ := List.forall_mem_cons.1 reads
      obtain ⟨s, source⟩ := Option.isSome_iff_exists.1 reads₁
      rw [List.flatMap_cons, List.filterMap_append, ih reads₂, List.map_cons]
      simp only [dataMoves, source, DataMove.written?, Swap.arrange, unit,
        Option.getD_some, if_true, List.filterMap_cons, List.filterMap_nil]
      rfl

end DmaController.Block
