/-
The law of capacity. Whether a request has a program, and of how many
bytes, can be asked without a buffer; a buffer with that many bytes
receives the program, the same one whatever the buffer held and wherever
it lies, and one with fewer tells which instruction was across its end
and is left with what fits, behind the end of a program.
-/
import DmaController.Proofs.Microprogram.Builder

namespace DmaController

open Instruction (assemble totalLength)

/-- What building one program does to a buffer. If there is room, the
program is in front of the old bytes. If there is none, the first
instruction that ends behind the buffer is named by where it ends, the
first byte is the end of a program, the instructions in front of that
one are as in the program, and the rest is as it was. -/
def Build.Obeys (build : Build) (program : Microprogram)
    (buffer : ProgramBuffer) : Prop :=
  if program.length ≤ buffer.capacity then
    build.result = .ok { program with busAddress := buffer.busAddress } ∧
      build.buffer = program.code ++ buffer.bytes.drop program.length
  else
    ∃ offset i, ⟨offset, .ok i⟩ ∈ disassemble program.code ∧
      offset ≤ buffer.capacity ∧ buffer.capacity < offset + i.length ∧
      offset + i.length ≤ program.length ∧
      build.result =
        .error (.bufferOverflow (offset + i.length) buffer.capacity) ∧
      build.buffer.length = buffer.capacity ∧
      ∀ k < buffer.capacity, build.buffer[k]? =
        if k = 0 then some 0
        else if k < offset then program.code[k]?
        else buffer.bytes[k]?

/-- A size and the builds it is the size of. A request without a plan
has neither, for the same reason, and leaves every buffer alone. -/
def CapacityLaw (size : Except BuildError Nat)
    (build : ProgramBuffer → Build) : Prop :=
  match size with
  | .error e =>
    (∃ cause, e = .plan cause) ∧
      ∀ buffer, build buffer = ⟨.error e, buffer.bytes⟩
  | .ok n =>
    ∃ program, program.length = n ∧
      ∀ buffer, (build buffer).Obeys program buffer

namespace Plan

variable (plan : Plan) (req : Request) (buffer : ProgramBuffer)

theorem length_program (busAddress : UInt32) :
    (plan.program req busAddress).length =
      totalLength (plan.instructions req) :=
  Instruction.length_assemble _

/-- The end of a program, written into the first byte of a buffer. -/
theorem getElem?_finish_encodeInto? (bytes : List UInt8) (k : Nat) :
    ((Instruction.finish.encodeInto? bytes).getD bytes)[k]? =
      if k = 0 ∧ 0 < bytes.length then some 0 else bytes[k]? := by
  cases bytes with
  | nil => exact (if_neg fun some => Nat.lt_irrefl 0 some.2).symm
  | cons byte rest => cases k <;> rfl

theorem length_finish_encodeInto? (bytes : List UInt8) :
    ((Instruction.finish.encodeInto? bytes).getD bytes).length =
      bytes.length := by
  cases bytes <;> rfl

/-- Building a plan's program obeys the capacity of the buffer. -/
theorem obeys_build (busAddress : UInt32) :
    (plan.build req buffer).Obeys (plan.program req busAddress) buffer := by
  unfold Build.Obeys
  rw [length_program]
  split
  next fits =>
    rw [build_of_fits fits]
    exact ⟨rfl, rfl⟩
  next exceeds =>
    obtain ⟨before, i, after, parts, low, high, built⟩ :=
      build_of_overflow (Nat.not_le.1 exceeds)
    have entry := Instruction.mem_entriesFrom_append before i after 0
    rw [Nat.zero_add, ← Instruction.disassembleFrom_assemble, ← parts] at entry
    have room : (buffer.bytes.drop (totalLength before)).length =
        buffer.capacity - totalLength before := List.length_drop
    have whole : totalLength (plan.instructions req) =
        totalLength before + (i.length + totalLength after) := by
      rw [parts, Instruction.totalLength_append, Instruction.totalLength_cons]
    refine ⟨totalLength before, i.normalize, entry, low, ?_⟩
    rw [Instruction.length_normalize, built]
    refine ⟨high, by omega, rfl, ?_, fun k inside => ?_⟩
    · rw [length_finish_encodeInto?, List.length_append,
        Instruction.length_assemble, room]
      omega
    · -- the written bytes are those of the program up to the cut
      have written :
          (assemble before ++ buffer.bytes.drop (totalLength before))[k]? =
            if k < totalLength before then
              (plan.program req busAddress).code[k]?
            else buffer.bytes[k]? := by
        split
        next early =>
          rw [program, parts, Instruction.assemble_append,
            List.getElem?_append_left (by rwa [Instruction.length_assemble]),
            List.getElem?_append_left (by rwa [Instruction.length_assemble])]
        next late =>
          rw [List.getElem?_append_right
              (by rw [Instruction.length_assemble]; omega),
            Instruction.length_assemble, List.getElem?_drop,
            Nat.add_sub_cancel' (by omega)]
      have some : 0 < (assemble before ++
          buffer.bytes.drop (totalLength before)).length := by
        rw [List.length_append, Instruction.length_assemble, room]
        omega
      simp only [getElem?_finish_encodeInto?, written, some, and_true]

end Plan

namespace Request

variable (req : Request) (mode : Mode) (cap : Capability)

/-- The sizes and builds of a request obey the law. -/
theorem capacityLaw_in :
    CapacityLaw (req.requiredSizeIn mode cap) (req.buildIn mode cap) := by
  unfold requiredSizeIn buildIn
  cases req.plan cap mode with
  | error cause => exact ⟨⟨cause, rfl⟩, fun _ => rfl⟩
  | ok plan =>
      exact ⟨plan.program req 0, plan.length_program req 0,
        fun buffer => plan.obeys_build req buffer 0⟩

/-- Security shows in a control word and nowhere else, and every control
word takes the same room. -/
theorem totalLength_phases_security (security : Security) :
    totalLength ((({ req with security } : Request).phases mode).flatMap
        (·.instructions { req with security } mode)) =
      totalLength ((req.phases mode).flatMap (·.instructions req mode)) := by
  have bursts : ({ req with security } : Request).bursts = req.bursts := rfl
  have singles : ({ req with security } : Request).singles = req.singles := rfl
  have body (kind : PhaseKind) :
      ({ req with security } : Request).loopBody mode kind =
        req.loopBody mode kind := rfl
  unfold phases burstPhase? singlePhase?
  rw [bursts, singles]
  split <;> split <;>
    simp only [Option.toList_none, Option.toList_some, List.nil_append,
      List.append_nil, List.cons_append, List.flatMap_cons, List.flatMap_nil,
      Instruction.totalLength_append, Phase.totalLength_instructions, body]

theorem requiredSizeIn_security (security : Security) :
    ({ req with security } : Request).requiredSizeIn mode cap =
      req.requiredSizeIn mode cap := by
  have validate : ({ req with security } : Request).validate cap mode =
      req.validate cap mode := rfl
  unfold requiredSizeIn plan
  rw [validate]
  cases req.validate cap mode with
  | error e => rfl
  | ok =>
    show Except.ok
      (totalLength (Plan.instructions ⟨mode, phases _ mode, _⟩ _)) =
      Except.ok (totalLength (Plan.instructions ⟨mode, phases req mode, _⟩ req))
    simp only [Plan.instructions, Instruction.totalLength_append,
      totalLength_phases_security]
    rfl

/-- Builds a request's program step by step. -/
def buildStepwise (buffer : ProgramBuffer) :
    Except LayoutError Microprogram × List UInt8 :=
  match req.plan cap mode with
  | .ok plan => plan.buildStepwise req buffer
  | .error e => (.error (.build (.plan e)), buffer.bytes)

/-- Counts the bytes of a request's program step by step. -/
def sizeStepwise : Except LayoutError Nat :=
  match req.plan cap mode with
  | .ok plan => plan.sizeStepwise req
  | .error e => .error (.build (.plan e))

theorem buildStepwise_eq (buffer : ProgramBuffer) :
    req.buildStepwise mode cap buffer =
      ((req.buildIn mode cap buffer).result.mapError .build,
        (req.buildIn mode cap buffer).buffer) := by
  unfold buildStepwise buildIn
  cases req.plan cap mode with
  | error e => rfl
  | ok plan => exact plan.buildStepwise_eq req buffer

theorem sizeStepwise_eq :
    req.sizeStepwise mode cap =
      (req.requiredSizeIn mode cap).mapError .build := by
  unfold sizeStepwise requiredSizeIn
  cases planned : req.plan cap mode with
  | error e => rfl
  | ok plan => exact Plan.sizeStepwise_eq planned

end Request

/-- What is an error of a build is no loop that is too long. -/
theorem mapError_build_ne_loopTooLong {α : Type} (outcome : Except BuildError α)
    (length : Nat) :
    outcome.mapError LayoutError.build ≠ .error (.loopTooLong length) := by
  cases outcome <;> exact nofun

/-- Copies and zero fills are built as their sizes say, and step by step
as well as all at once; no loop of a program is too long. -/
theorem builds_obey_capacity (cap : Capability) :
    (∀ req : Request, CapacityLaw (req.requiredSize cap) (req.build cap)) ∧
    (∀ destination size security,
      CapacityLaw (cap.zeroFillSize destination size)
        (cap.buildZeroFill destination size security)) ∧
    ∀ (req : Request) (mode : Mode),
      req.sizeStepwise mode cap =
        (req.requiredSizeIn mode cap).mapError .build ∧
      (∀ buffer, req.buildStepwise mode cap buffer =
        ((req.buildIn mode cap buffer).result.mapError .build,
          (req.buildIn mode cap buffer).buffer)) ∧
      ∀ length, req.sizeStepwise mode cap ≠ .error (.loopTooLong length) ∧
        ∀ buffer, (req.buildStepwise mode cap buffer).1 ≠
          .error (.loopTooLong length) := by
  refine ⟨fun req => req.capacityLaw_in .copy cap,
    fun destination size security => ?_, fun req mode =>
      ⟨req.sizeStepwise_eq mode cap, req.buildStepwise_eq mode cap,
        fun length => ?_⟩⟩
  · have size_eq : cap.zeroFillSize destination size =
        (Request.zeroFill cap destination size security).requiredSizeIn
          .zeroFill cap :=
      Request.requiredSizeIn_security (.zeroFill cap destination size security)
        .zeroFill cap .secure
    rw [size_eq]
    exact Request.capacityLaw_in _ .zeroFill cap
  · constructor
    · rw [req.sizeStepwise_eq]
      exact mapError_build_ne_loopTooLong _ length
    · intro buffer
      rw [req.buildStepwise_eq]
      exact mapError_build_ne_loopTooLong _ length

end DmaController
