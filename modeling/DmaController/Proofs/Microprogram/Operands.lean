/-
Programs say what they mean: every operand of a plan's program fits the
place the encoding has for it. Round counts do because the nests fit the
loop counters, peripheral numbers do because a legal request names a
peripheral there is, and the distance of a loop end does because a body
is short.
-/
import DmaController.Microprogram.Instructions
import DmaController.Proofs.Transfer.Planning

namespace DmaController

variable {req : Request} {cap : Capability} {mode : Mode}

/-- The number of bytes in a loop body. -/
theorem totalLength_loopBody_le (req : Request) (mode : Mode)
    (kind : PhaseKind) :
    Instruction.totalLength (req.loopBody mode kind) ≤ 7 := by
  unfold Request.loopBody
  cases mode with
  | zeroFill => simp [Instruction.length]
  | copy => cases req.direction <;> simp [Instruction.length]

@[simp] theorem totalLength_loopAround (counter : LoopCounter) (n : UInt16)
    (body : List Instruction) :
    Instruction.totalLength (loopAround counter n body) =
      Instruction.totalLength body + 4 := by
  simp only [loopAround, Instruction.totalLength_append,
    Instruction.totalLength_cons, Instruction.totalLength_nil,
    Instruction.length]
  omega

/-- The control word of a phase takes six bytes. -/
theorem Phase.totalLength_instructions (phase : Phase) (req : Request)
    (mode : Mode) :
    Instruction.totalLength (phase.instructions req mode) =
      6 + Instruction.totalLength
        (phase.loops.flatMap (·.instructions (req.loopBody mode phase.kind))) := by
  rw [Phase.instructions, Instruction.totalLength_cons]
  rfl

/-- The operands of a loop fit if its body's do. -/
theorem inRange_loopAround (counter : LoopCounter) {n : UInt16}
    {body : List Instruction} (rounds : 1 ≤ n ∧ n ≤ 256)
    (h : ∀ i ∈ body, i.InRange) :
    ∀ i ∈ loopAround counter n body, i.InRange := by
  intro i mem
  rw [loopAround, List.mem_append, List.mem_cons, List.mem_singleton] at mem
  rcases mem with (rfl | mem) | rfl
  · exact rounds
  · exact h i mem
  · trivial

theorem LoopNest.Countable.inRange {nest : LoopNest} {body : List Instruction}
    (countable : nest.Countable) (h : ∀ i ∈ body, i.InRange) :
    ∀ i ∈ nest.instructions body, i.InRange := by
  have inner := inRange_loopAround .zero countable.inner h
  unfold LoopNest.instructions
  cases given : nest.outer with
  | none => exact inner
  | some n => exact inRange_loopAround .one (countable.outer n given) inner

/-- The peripheral of a legal request has a number of five bits. -/
theorem Request.Legal.periph_lt (legal : req.Legal cap mode)
    (periphs : cap.numPeriph ≤ 32) (copy : mode = .copy)
    (h : req.direction.hasPeriph) : req.periph < 32 :=
  UInt8.lt_of_lt_of_le (legal.periph copy h) periphs

theorem Request.Legal.inRange_loopBody (legal : req.Legal cap mode)
    (periphs : cap.numPeriph ≤ 32) (kind : PhaseKind) :
    ∀ i ∈ req.loopBody mode kind, i.InRange := by
  have number := legal.periph_lt periphs
  intro i mem
  unfold loopBody at mem
  cases mode with
  | zeroFill =>
      obtain rfl := List.mem_singleton.1 mem
      trivial
  | copy =>
      cases towards : req.direction <;>
        simp only [towards, List.mem_cons, List.not_mem_nil] at mem
      case memoryToMemory =>
        rcases mem with rfl | rfl | rfl | rfl | ⟨⟨⟩⟩ <;> trivial
      all_goals
        have number := number rfl (towards ▸ rfl)
        rcases mem with rfl | rfl | rfl | rfl | rfl | ⟨⟨⟩⟩ <;> trivial

/-- Every operand of a plan's program fits. -/
theorem Plan.inRange_instructions {plan : Plan}
    (bus : cap.maxBurstSize.toNat ≤ 7) (periphs : cap.numPeriph ≤ 32)
    (h : req.plan cap mode = .ok plan) :
    ∀ i ∈ plan.instructions req, i.InRange := by
  obtain ⟨legal, rfl⟩ := (Request.plan_eq_ok_iff bus).1 h
  have number := legal.periph_lt periphs
  intro i mem
  rw [Plan.instructions, List.mem_append, List.mem_append,
    List.mem_flatMap] at mem
  rcases mem with (mem | ⟨phase, here, mem⟩) | mem
  · unfold Request.prologue at mem
    simp only [List.mem_append, List.mem_ite_nil_right,
      List.mem_singleton] at mem
    rcases mem with (⟨-, rfl⟩ | rfl) | ⟨⟨copy, periph⟩, rfl⟩
    · trivial
    · trivial
    · exact number copy periph
  · rw [Phase.instructions, List.mem_cons, List.mem_flatMap] at mem
    rcases mem with rfl | ⟨nest, among, mem⟩
    · trivial
    · exact ((legal.phase_ready bus phase here).countable nest among).inRange
        (legal.inRange_loopBody periphs phase.kind) i mem
  · unfold Mode.epilogue at mem
    cases mode <;> simp only [List.mem_cons, List.not_mem_nil, or_false] at mem
    · exact mem ▸ trivial
    · rcases mem with rfl | rfl <;> trivial

end DmaController
