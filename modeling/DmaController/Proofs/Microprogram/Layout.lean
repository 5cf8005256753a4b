/-
A program in a buffer of some length. The instructions that fit are
those up to the first one that would end beyond the buffer; they are
laid out whole and in order, and nothing behind them is touched. So a
program is either laid out completely, or there is one instruction
across the end of the buffer, and it tells how much would have been
needed.
-/
import DmaController.Microprogram.Build
import DmaController.Proofs.Instruction.Decoding

namespace DmaController

open Instruction (assemble totalLength)

-- ================================================= what fits, and what not

/-- What fits is either the whole program, or the part in front of an
instruction that does not fit. -/
theorem fitting_cases (capacity offset : Nat) (program : List Instruction) :
    fitting capacity offset program = program ∨
      ∃ i after, program = fitting capacity offset program ++ i :: after ∧
        capacity <
          offset + totalLength (fitting capacity offset program) + i.length := by
  induction program generalizing offset with
  | nil => exact Or.inl rfl
  | cons i program ih =>
      rw [fitting]
      split
      next exceeds => exact Or.inr ⟨i, program, rfl, exceeds⟩
      next =>
        rcases ih (offset + i.length) with whole | ⟨j, after, split, exceeds⟩
        · exact Or.inl (by rw [whole])
        · refine Or.inr ⟨j, after, by rw [List.cons_append, ← split], ?_⟩
          rwa [Instruction.totalLength_cons, ← Nat.add_assoc]

/-- What fits ends within the capacity. -/
theorem totalLength_fitting_le {capacity offset : Nat} (h : offset ≤ capacity)
    (program : List Instruction) :
    offset + totalLength (fitting capacity offset program) ≤ capacity := by
  induction program generalizing offset with
  | nil => exact h
  | cons i program ih =>
      rw [fitting]
      split
      next => exact h
      next fits =>
        rw [Instruction.totalLength_cons, ← Nat.add_assoc]
        exact ih (Nat.not_lt.1 fits)

/-- A program that ends within the capacity fits. -/
theorem fitting_eq_self {capacity offset : Nat} {program : List Instruction}
    (h : offset + totalLength program ≤ capacity) :
    fitting capacity offset program = program := by
  rcases fitting_cases capacity offset program with
    whole | ⟨i, after, split, exceeds⟩
  · exact whole
  · rw [split, Instruction.totalLength_append,
      Instruction.totalLength_cons] at h
    omega

/-- Laying out a program: what fits is written, and the first
instruction that does not fit tells where it would have ended. -/
theorem Draft.emitAll_eq (capacity : Nat) (draft : Draft)
    (program : List Instruction) :
    draft.emitAll capacity program =
      (⟨(assemble (fitting capacity draft.offset program)).reverse ++
            draft.written,
          draft.offset + totalLength (fitting capacity draft.offset program),
          draft.rest.drop
            (totalLength (fitting capacity draft.offset program))⟩,
        (program.drop (fitting capacity draft.offset program).length).head?.map
          fun i =>
            draft.offset +
              totalLength (fitting capacity draft.offset program) +
              i.length) := by
  induction program generalizing draft with
  | nil => rfl
  | cons i program ih =>
      rw [emitAll, fitting]
      split
      next => rfl
      next =>
        rw [ih]
        simp only [emit, Instruction.assemble_cons, List.reverse_append,
          List.append_assoc, Instruction.totalLength_cons, List.drop_drop,
          List.length_cons, List.drop_succ_cons, Nat.add_assoc]

namespace Plan

variable {plan : Plan} {req : Request} {buffer : ProgramBuffer}

/-- The program of a plan, built for a place. -/
def program (plan : Plan) (req : Request) (busAddress : UInt32) :
    Microprogram where
  code := assemble (plan.instructions req)
  busAddress
  nonSecure := req.security = .nonSecure
  plan

/-- A buffer with enough room receives the program, and keeps what is
behind it. -/
theorem build_of_fits
    (h : totalLength (plan.instructions req) ≤ buffer.capacity) :
    plan.build req buffer =
      ⟨.ok (plan.program req buffer.busAddress),
        assemble (plan.instructions req) ++
          buffer.bytes.drop (totalLength (plan.instructions req))⟩ := by
  have whole : fitting buffer.capacity 0 (plan.instructions req) =
      plan.instructions req := fitting_eq_self (by rwa [Nat.zero_add])
  rw [build, Draft.emitAll_eq]
  simp only [Draft.start, whole, List.drop_length, List.head?_nil,
    Option.map_none, Draft.bytes, List.append_nil, List.reverse_reverse,
    program]

/-- A buffer without enough room receives the instructions up to the one
across its end, and the end of a program in their first byte. -/
theorem build_of_overflow
    (h : buffer.capacity < totalLength (plan.instructions req)) :
    ∃ before i after, plan.instructions req = before ++ i :: after ∧
      totalLength before ≤ buffer.capacity ∧
      buffer.capacity < totalLength before + i.length ∧
      plan.build req buffer =
        ⟨.error
          (.bufferOverflow (totalLength before + i.length) buffer.capacity),
          (Instruction.finish.encodeInto?
            (assemble before ++ buffer.bytes.drop (totalLength before))).getD
              (assemble before ++ buffer.bytes.drop (totalLength before))⟩ := by
  have within :=
    totalLength_fitting_le (Nat.zero_le buffer.capacity) (plan.instructions req)
  rcases fitting_cases buffer.capacity 0 (plan.instructions req) with
    whole | ⟨i, after, parts, exceeds⟩
  · rw [whole] at within
    omega
  · have laid := Draft.emitAll_eq buffer.capacity (.start buffer.bytes)
      (plan.instructions req)
    simp only [Draft.start] at laid
    generalize fitting buffer.capacity 0 (plan.instructions req) = before
      at laid within parts exceeds
    rw [Nat.zero_add] at within exceeds
    have next :
        ((plan.instructions req).drop before.length).head? = some i := by
      rw [parts, List.drop_left]
      rfl
    refine ⟨before, i, after, parts, within, exceeds, ?_⟩
    rw [build, Draft.start, laid]
    simp only [next, Option.map_some, Draft.bytes, List.append_nil,
      List.reverse_reverse, Nat.zero_add]

end Plan

/-- A build that succeeds has built the program of a plan. -/
theorem Request.program_of_buildIn {req : Request} {cap : Capability}
    {mode : Mode} {buffer : ProgramBuffer} {program : Microprogram}
    (h : (req.buildIn mode cap buffer).result = .ok program) :
    ∃ plan, req.plan cap mode = .ok plan ∧
      program = plan.program req buffer.busAddress := by
  unfold buildIn at h
  cases planned : req.plan cap mode with
  | error e =>
      rw [planned] at h
      cases h
  | ok plan =>
      rw [planned] at h
      refine ⟨plan, rfl, ?_⟩
      by_cases fits : totalLength (plan.instructions req) ≤ buffer.capacity
      · simp only [Plan.build_of_fits fits] at h
        exact (Except.ok.inj h).symm
      · obtain ⟨_, _, _, -, -, -, built⟩ :=
          Plan.build_of_overflow (Nat.not_le.1 fits)
        simp only [built] at h
        cases h

section

variable {req : Request} {cap : Capability} {mode : Mode} {plan : Plan}

/-- A request with a plan can say how much room its program takes. -/
theorem Request.requiredSizeIn_of_plan (planned : req.plan cap mode = .ok plan) :
    req.requiredSizeIn mode cap =
      .ok (totalLength (plan.instructions req)) := by
  rw [requiredSizeIn, planned]

/-- An empty buffer with that much room receives it. -/
theorem Request.buildIn_of_plan (planned : req.plan cap mode = .ok plan)
    {length : Nat} (fits : totalLength (plan.instructions req) ≤ length)
    (address : UInt32) :
    (req.buildIn mode cap ⟨List.replicate length 0, address⟩).result =
      .ok (plan.program req address) := by
  have room : totalLength (plan.instructions req) ≤
      ProgramBuffer.capacity ⟨List.replicate length 0, address⟩ := by
    rwa [ProgramBuffer.capacity, List.length_replicate]
  rw [buildIn, planned]
  exact congrArg Build.result (Plan.build_of_fits room)

end

end DmaController
