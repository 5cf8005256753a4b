/-
The shape of a built program. Read back from its bytes it is the list of
its plan: the addresses and the flush, then phase by phase the control
word and nest by nest the body between its loop ends, then the barrier
of a zero fill and the end of the program, which is nowhere else.

That the loops of this list are properly nested is a matter of offsets.
A loop end carries the length of what it closes, so the loop around a
nested body is nested wherever it lies, as long as the length fits a
byte (`wellNested_loopAround`); a body takes at most seven bytes and the
loop around it four more. From there on nothing is left but lists put
one behind the other.
-/
import DmaController.Proofs.Instruction.Listing
import DmaController.Proofs.Instruction.Loops
import DmaController.Proofs.Microprogram.Layout
import DmaController.Proofs.Microprogram.Operands

namespace DmaController

open Instruction (assemble entriesFrom totalLength)

variable {req : Request} {cap : Capability} {mode : Mode} {plan : Plan}

-- =============================================================== nesting

/-- A loop around a nested body is nested, if the way back fits its
place. -/
theorem wellNested_loopAround {around : List LoopCounter}
    {counter : LoopCounter} {body : List Instruction} {offset : Nat}
    (n : UInt16) (free : counter ∉ around)
    (outermost : counter = .one → around = [])
    (short : totalLength body < 256)
    (h : WellNested (counter :: around) (entriesFrom (offset + 2) body)) :
    WellNested around (entriesFrom offset (loopAround counter n body)) := by
  have jump : (UInt8.ofNat (totalLength body)).toNat = totalLength body :=
    UInt8.toNat_ofNat_of_lt short
  rw [loopAround, List.cons_append, entriesFrom,
    Instruction.entriesFrom_append]
  exact .loop free outermost
    (by rw [jump]; rfl) h

/-- A body has no loop in it. -/
theorem Request.loopBody_plain (req : Request) (mode : Mode)
    (kind : PhaseKind) :
    ∀ i ∈ req.loopBody mode kind, i.isLoopEnd = false := by
  unfold loopBody
  cases mode with
  | zeroFill => simp [Instruction.isLoopEnd]
  | copy => cases req.direction <;> simp [Instruction.isLoopEnd]

theorem LoopNest.wellNested (nest : LoopNest) {body : List Instruction}
    (plain : ∀ i ∈ body, i.isLoopEnd = false) (short : totalLength body ≤ 7)
    (offset : Nat) :
    WellNested [] (entriesFrom offset (nest.instructions body)) := by
  unfold instructions
  cases nest.outer with
  | none =>
      exact wellNested_loopAround nest.inner List.not_mem_nil nofun (by omega)
        (wellNested_of_plain plain _ _)
  | some n =>
      refine wellNested_loopAround n List.not_mem_nil (fun _ => rfl) ?_
        (wellNested_loopAround nest.inner (by decide) nofun (by omega)
          (wellNested_of_plain plain _ _))
      rw [totalLength_loopAround]
      omega

theorem Phase.wellNested (phase : Phase) (req : Request) (mode : Mode)
    (offset : Nat) :
    WellNested [] (entriesFrom offset (phase.instructions req mode)) := by
  have nests (offset : Nat) : WellNested []
      (entriesFrom offset (phase.loops.flatMap
        (·.instructions (req.loopBody mode phase.kind)))) := by
    induction phase.loops generalizing offset with
    | nil => exact .nil []
    | cons nest loops ih =>
        rw [List.flatMap_cons]
        exact .entriesFrom_append
          (nest.wellNested (req.loopBody_plain mode phase.kind)
            (totalLength_loopBody_le req mode phase.kind) offset) (ih _)
  exact .append (.plain rfl) (nests _)

/-- The loops of a plan's program are properly nested. -/
theorem Plan.wellNested (plan : Plan) (req : Request) :
    WellNested [] (entriesFrom 0 (plan.instructions req)) := by
  have phases (offset : Nat) : WellNested [] (entriesFrom offset
      (plan.phases.flatMap (·.instructions req plan.mode))) := by
    induction plan.phases generalizing offset with
    | nil => exact .nil []
    | cons phase phases ih =>
        rw [List.flatMap_cons]
        exact .entriesFrom_append (phase.wellNested req plan.mode offset)
          (ih _)
  have before : ∀ i ∈ req.prologue plan.mode, i.isLoopEnd = false := by
    unfold Request.prologue
    cases plan.mode <;> cases req.direction.hasPeriph <;>
      simp [Instruction.isLoopEnd]
  have after : ∀ i ∈ plan.mode.epilogue, i.isLoopEnd = false := by
    cases plan.mode <;> decide
  exact ((wellNested_of_plain before _ _).entriesFrom_append
    (phases _)).entriesFrom_append (wellNested_of_plain after _ _)

-- =============================================================== the end

theorem finish_not_mem_loopAround {counter : LoopCounter} {n : UInt16}
    {body : List Instruction} (h : .finish ∉ body) :
    .finish ∉ loopAround counter n body := by
  simp [loopAround, h]

theorem Phase.finish_not_mem (phase : Phase) (req : Request) (mode : Mode) :
    .finish ∉ phase.instructions req mode := by
  have body : .finish ∉ req.loopBody mode phase.kind := by
    unfold Request.loopBody
    cases mode with
    | zeroFill => simp
    | copy => cases req.direction <;> simp
  rw [instructions, List.mem_cons, List.mem_flatMap]
  rintro (first | ⟨nest, -, mem⟩)
  · cases first
  · have inner : .finish ∉ loopAround .zero nest.inner _ :=
      finish_not_mem_loopAround body
    unfold LoopNest.instructions at mem
    cases given : nest.outer with
    | none => exact inner (by simpa only [given] using mem)
    | some n =>
        exact finish_not_mem_loopAround inner (by simpa only [given] using mem)

/-- A program is something without an end in it, and then the end. -/
theorem Plan.exists_finish (plan : Plan) (req : Request) :
    ∃ front, plan.instructions req = front ++ [.finish] ∧ .finish ∉ front := by
  have before : .finish ∉ req.prologue plan.mode := by
    unfold Request.prologue
    cases plan.mode <;> cases req.direction.hasPeriph <;> simp
  have phases : .finish ∉
      plan.phases.flatMap (·.instructions req plan.mode) := by
    rw [List.mem_flatMap]
    rintro ⟨phase, -, mem⟩
    exact phase.finish_not_mem req plan.mode mem
  have parts : plan.mode.epilogue = [.finish] ∨
      plan.mode.epilogue = [.wmb] ++ [.finish] := by
    cases plan.mode
    · exact Or.inl rfl
    · exact Or.inr rfl
  rw [instructions]
  rcases parts with copy | fill
  · rw [copy]
    refine ⟨_, rfl, ?_⟩
    rw [List.mem_append, not_or]
    exact ⟨before, phases⟩
  · rw [fill, ← List.append_assoc]
    refine ⟨_, rfl, ?_⟩
    simp only [List.mem_append, not_or]
    exact ⟨⟨before, phases⟩, by decide⟩

/-- The end of a program is its last instruction and no other. -/
theorem Plan.getElem?_eq_finish_iff (plan : Plan) (req : Request) (k : Nat) :
    (plan.instructions req)[k]? = some .finish ↔
      k + 1 = (plan.instructions req).length := by
  obtain ⟨front, parts, none_before⟩ := plan.exists_finish req
  rw [parts, List.length_append, List.length_singleton, Nat.succ_inj]
  constructor
  · intro here
    refine Decidable.byContradiction fun other => ?_
    rcases Nat.lt_or_gt_of_ne other with early | late
    · rw [List.getElem?_append_left early] at here
      exact none_before (List.mem_of_getElem? here)
    · rw [List.getElem?_eq_none (by simp; omega)] at here
      cases here
  · rintro rfl
    exact List.getElem?_concat_length

-- ============================================================ the program

/-- The listing of a built program is the list of its plan, each
instruction at the sum of the lengths before it. -/
theorem Plan.disassemble_program (bus : cap.maxBurstSize.toNat ≤ 7)
    (periphs : cap.numPeriph ≤ 32) (planned : req.plan cap mode = .ok plan)
    (busAddress : UInt32) :
    disassemble (plan.program req busAddress).code =
      (plan.instructions req).mapIdx fun k i =>
        ⟨totalLength ((plan.instructions req).take k), .ok i⟩ := by
  have range := plan.inRange_instructions bus periphs planned
  rw [program, disassemble, Instruction.disassembleFrom_assemble,
    Instruction.entriesFrom_eq_mapIdx]
  refine List.ext_getElem (by simp only [List.length_mapIdx]) ?_
  intro k inside _
  rw [List.length_mapIdx] at inside
  rw [List.getElem_mapIdx, List.getElem_mapIdx, Nat.zero_add,
    (range _ (List.getElem_mem inside)).normalize_eq]

/-- A nest written out: one loop, or two. -/
theorem LoopNest.instructions_eq (nest : LoopNest) (body : List Instruction) :
    nest.instructions body =
      match nest.outer with
      | none =>
        .lp .zero nest.inner :: body ++
          [.lpend .zero .always (.ofNat (totalLength body))]
      | some outer =>
        .lp .one outer :: .lp .zero nest.inner :: body ++
          [.lpend .zero .always (.ofNat (totalLength body)),
            .lpend .one .always (.ofNat (totalLength body + 4))] := by
  unfold instructions
  cases nest.outer with
  | none => rfl
  | some outer =>
      show loopAround .one outer (loopAround .zero nest.inner body) = _
      rw [loopAround, totalLength_loopAround, loopAround]
      simp

/-- What is behind the phases, written out. -/
theorem Mode.epilogue_eq (mode : Mode) :
    mode.epilogue = (if mode = .zeroFill then [.wmb] else []) ++ [.finish] := by
  cases mode <;> rfl

/-- The bodies of the loops, written out. A transfer with a peripheral
waits for it, and accesses its side with the instruction for the kind of
request. -/
structure Request.BodiesListed (req : Request) (mode : Mode) : Prop where
  zeroFill : mode = .zeroFill → ∀ kind, req.loopBody mode kind = [.stz]
  memory : mode = .copy → req.direction = .memoryToMemory → ∀ kind,
    req.loopBody mode kind = [.ld .always, .rmb, .st .always, .wmb]
  toPeriph : mode = .copy → req.direction = .memoryToPeriph →
    req.loopBody mode .burst =
      [.wfp .burst req.periph, .ld .always, .rmb, .stp .burst req.periph,
        .wmb] ∧
    req.loopBody mode .single =
      [.wfp .single req.periph, .ld .always, .rmb, .stp .single req.periph,
        .wmb]
  fromPeriph : mode = .copy → req.direction = .periphToMemory →
    req.loopBody mode .burst =
      [.wfp .burst req.periph, .ldp .burst req.periph, .rmb, .st .always,
        .wmb] ∧
    req.loopBody mode .single =
      [.wfp .single req.periph, .ldp .single req.periph, .rmb, .st .always,
        .wmb]

theorem Request.bodiesListed (req : Request) (mode : Mode) :
    req.BodiesListed mode := by
  constructor
  · rintro rfl kind
    rfl
  · rintro rfl direction kind
    simp only [loopBody, direction]
  · rintro rfl direction
    simp only [loopBody, direction]
    exact ⟨rfl, rfl⟩
  · rintro rfl direction
    simp only [loopBody, direction]
    exact ⟨rfl, rfl⟩

/-- The program of every plan has one shape. A buffer with enough room
receives it, and what any buffer received reads back without an error,
operand for operand, as the following instructions, each behind the ones
before it: the source of a copy and the destination, the flush of a copy
with a peripheral, then for each phase its control word and for each of
its nests the body between the ends of one loop or two, then the barrier
of a zero fill and the end. The end is the last instruction and no
other. The loops are properly nested, and each loop end goes back to the
first byte behind the beginning of its loop, the last one before it on
the same counter. -/
theorem Request.build_shape (bus : cap.maxBurstSize.toNat ≤ 7)
    (periphs : cap.numPeriph ≤ 32) (planned : req.plan cap mode = .ok plan)
    (buffer : ProgramBuffer) :
    req.BodiesListed mode ∧ ∃ program : List Instruction,
      program =
        (if mode = .copy then [.mov .sourceAddress req.source] else []) ++
        [.mov .destinationAddress req.destination] ++
        (if mode = .copy ∧ req.direction.hasPeriph
          then [.flushp req.periph] else []) ++
        plan.phases.flatMap (fun phase =>
          let body := req.loopBody mode phase.kind
          let length := totalLength body
          .mov .channelControl phase.control.word ::
            phase.loops.flatMap fun nest =>
              match nest.outer with
              | none =>
                .lp .zero nest.inner :: body ++
                  [.lpend .zero .always (.ofNat length)]
              | some outer =>
                .lp .one outer :: .lp .zero nest.inner :: body ++
                  [.lpend .zero .always (.ofNat length),
                    .lpend .one .always (.ofNat (length + 4))]) ++
        (if mode = .zeroFill then [.wmb] else []) ++ [.finish] ∧
      (totalLength program ≤ buffer.capacity →
        ∃ built, (req.buildIn mode cap buffer).result = .ok built) ∧
      ∀ built, (req.buildIn mode cap buffer).result = .ok built →
        disassemble built.code = program.mapIdx (fun k i =>
          ⟨totalLength (program.take k), .ok i⟩) ∧
        (∀ k, program[k]? = some .finish ↔ k + 1 = program.length) ∧
        WellNested [] (disassemble built.code) ∧
        ∀ stop counter condition jump,
          ⟨stop, .ok (.lpend counter condition jump)⟩ ∈
            disassemble built.code →
          jump.toNat ≤ stop ∧
          ∃ first start iterations body last,
            disassemble built.code =
              first ++ ⟨start, .ok (.lp counter iterations)⟩ ::
                (body ++
                  ⟨stop, .ok (.lpend counter condition jump)⟩ :: last) ∧
            stop - jump.toNat =
              start + (Instruction.lp counter iterations).length ∧
            ∀ offset n, ⟨offset, .ok (.lp counter n)⟩ ∉ body := by
  refine ⟨req.bodiesListed mode, plan.instructions req, ?_, fun room => ?_,
    fun built success => ?_⟩
  · obtain ⟨-, rfl⟩ := (Request.plan_eq_ok_iff bus).1 planned
    simp only [Plan.instructions, Phase.instructions, Request.prologue,
      LoopNest.instructions_eq, Mode.epilogue_eq, List.append_assoc]
  · rw [buildIn, planned]
    exact ⟨_, congrArg Build.result (Plan.build_of_fits room)⟩
  · obtain ⟨plan', same, rfl⟩ := Request.program_of_buildIn success
    obtain rfl := Except.ok.inj (planned.symm.trans same)
    have nested : WellNested []
        (disassemble (plan.program req buffer.busAddress).code) := by
      rw [Plan.program, disassemble, Instruction.disassembleFrom_assemble]
      exact plan.wellNested req
    refine ⟨plan.disassemble_program bus periphs planned _,
      plan.getElem?_eq_finish_iff req, nested, ?_⟩
    intro stop counter condition jump here
    obtain ⟨first, start, iterations, body, last, inner, parts, back,
      within⟩ := nested.of_lpend here
    exact ⟨by omega, first, start, iterations, body, last, parts, by omega,
      fun offset n => within.lp_not_mem (List.mem_cons_self ..)⟩

/-- Reads 2055 bytes from a peripheral, in 513 bursts of four, one more
than two full rounds of a counter, and three bytes on their own. -/
def fourByFour : Request where
  source := 0x40000000
  destination := 0x100
  size := 2055
  burstSize := 0
  burstLength := 4
  periph := 5
  direction := .periphToMemory

/-- The plan of these bytes: a nest of two loops and one of a single round
for the bursts, and a loop for the rest. -/
def fourByFourPlan : Plan :=
  ⟨.copy, [⟨.burst, ⟨0x024c4930⟩, 4, [⟨256, some 2⟩, ⟨1, none⟩]⟩,
    ⟨.single, ⟨0x02404900⟩, 1, [⟨3, none⟩]⟩], 0⟩

theorem plan_fourByFour :
    fourByFour.plan .pl330 .copy = .ok fourByFourPlan := by
  decide +kernel

/-- The program of these bytes. The outer loop goes back eleven bytes,
over the inner one. -/
theorem build_shape_fourByFour :
    Capability.pl330.maxBurstSize.toNat ≤ 7 ∧
      Capability.pl330.numPeriph ≤ 32 ∧
      fourByFour.plan .pl330 .copy = .ok fourByFourPlan ∧
      ∃ built,
        (fourByFour.buildIn .copy .pl330 ⟨List.replicate 64 0, 0⟩).result =
          .ok built ∧
        WellNested [] (disassemble built.code) ∧
        disassemble built.code =
          [⟨0, .ok (.mov .sourceAddress 0x40000000)⟩,
            ⟨6, .ok (.mov .destinationAddress 0x100)⟩, ⟨12, .ok (.flushp 5)⟩,
            ⟨14, .ok (.mov .channelControl 0x024c4930)⟩,
            ⟨20, .ok (.lp .one 2)⟩, ⟨22, .ok (.lp .zero 256)⟩,
            ⟨24, .ok (.wfp .burst 5)⟩, ⟨26, .ok (.ldp .burst 5)⟩,
            ⟨28, .ok .rmb⟩, ⟨29, .ok (.st .always)⟩, ⟨30, .ok .wmb⟩,
            ⟨31, .ok (.lpend .zero .always 7)⟩,
            ⟨33, .ok (.lpend .one .always 11)⟩, ⟨35, .ok (.lp .zero 1)⟩,
            ⟨37, .ok (.wfp .burst 5)⟩, ⟨39, .ok (.ldp .burst 5)⟩,
            ⟨41, .ok .rmb⟩, ⟨42, .ok (.st .always)⟩, ⟨43, .ok .wmb⟩,
            ⟨44, .ok (.lpend .zero .always 7)⟩,
            ⟨46, .ok (.mov .channelControl 0x02404900)⟩,
            ⟨52, .ok (.lp .zero 3)⟩, ⟨54, .ok (.wfp .single 5)⟩,
            ⟨56, .ok (.ldp .single 5)⟩, ⟨58, .ok .rmb⟩,
            ⟨59, .ok (.st .always)⟩, ⟨60, .ok .wmb⟩,
            ⟨61, .ok (.lpend .zero .always 7)⟩, ⟨63, .ok .finish⟩] := by
  have bus : Capability.pl330.maxBurstSize.toNat ≤ 7 := by decide
  have periphs : Capability.pl330.numPeriph ≤ 32 := by decide
  obtain ⟨-, program, rfl, room, shape⟩ := Request.build_shape bus periphs
    plan_fourByFour ⟨List.replicate 64 0, 0⟩
  obtain ⟨built, success⟩ := room (by decide)
  obtain ⟨listing, -, nested, -⟩ := shape built success
  exact ⟨bus, periphs, plan_fourByFour, built, success, nested,
    listing.trans rfl⟩

end DmaController
