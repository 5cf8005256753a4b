/-
Building step by step. A builder appends one instruction after the
other to a buffer, or, without one, only counts their bytes. A loop is
opened by its first instruction and closed by its last, and the distance
between the two is found when it is closed; a distance that does not fit
the jump of a loop end is an error of its own.

Bodies are short, so that error never occurs, and a builder then does
what laying out the list of all instructions does: with a buffer it is
`Plan.build`, and without one it counts the bytes of the list. Both
modes run out of room at the same instruction, if they do at all.
-/
import DmaController.Proofs.Microprogram.Layout
import DmaController.Proofs.Microprogram.Operands

namespace DmaController

open Instruction (assemble totalLength)

/-- Why a builder stops. -/
inductive LayoutError where
  | build (cause : BuildError)
  /-- The body of a loop has `length` bytes, more than a jump can
  cover. -/
  | loopTooLong (length : Nat)
  deriving DecidableEq

/-- A builder that has come to an offset, in a buffer if it has one. -/
structure Builder where
  bytes : Option (List UInt8)
  capacity : Nat
  offset : Nat
  deriving DecidableEq

/-- A step of a builder. Where it fails, the builder stays as it is. -/
abbrev Building := ExceptT LayoutError (StateM Builder)

/-- An open loop: its counter, and where its body starts. -/
structure LoopFrame where
  counter : LoopCounter
  start : Nat

namespace Builder

/-- A builder in front of a buffer. -/
def new (bytes : List UInt8) : Builder :=
  ⟨some bytes, bytes.length, 0⟩

/-- A builder that only counts, as far as a length can be counted. -/
def measuring : Builder :=
  ⟨none, UInt64.size - 1, 0⟩

/-- Bytes with a part of them replaced. -/
def overwrite (bytes : List UInt8) (offset : Nat)
    (value : List UInt8) : List UInt8 :=
  bytes.take offset ++ value ++ bytes.drop (offset + value.length)

/-- Appends an instruction. -/
def emit (i : Instruction) : Building Unit := do
  let builder ← get
  let ending := builder.offset + i.length
  if builder.capacity < ending then
    throw (.build (.bufferOverflow ending builder.capacity))
  set { builder with
    bytes := builder.bytes.map (overwrite · builder.offset i.encode)
    offset := ending }

/-- Opens a loop. -/
def loopBegin (counter : LoopCounter) (iterations : UInt16) :
    Building LoopFrame := do
  emit (.lp counter iterations)
  let builder ← get
  return ⟨counter, builder.offset⟩

/-- Closes a loop. -/
def loopEnd (frame : LoopFrame) : Building Unit := do
  let builder ← get
  let length := builder.offset - frame.start
  if UInt8.size ≤ length then
    throw (.loopTooLong length)
  emit (.lpend frame.counter .always (UInt8.ofNat length))

/-- Appends a body in the loops of a nest. -/
def emitLoop (nest : LoopNest) (body : List Instruction) : Building Unit := do
  let outer ← match nest.outer with
    | some iterations => some <$> loopBegin .one iterations
    | none => pure none
  let inner ← loopBegin .zero nest.inner
  forM body emit
  loopEnd inner
  match outer with
  | some frame => loopEnd frame
  | none => pure ()

/-- Appends the program of a plan. -/
def emitProgram (plan : Plan) (req : Request) : Building Unit := do
  if plan.mode = .copy then
    emit (.mov .sourceAddress req.source)
  emit (.mov .destinationAddress req.destination)
  if plan.mode = .copy ∧ req.direction.hasPeriph then
    emit (.flushp req.periph)
  forM plan.phases fun phase => do
    emit (.mov .channelControl phase.control.word)
    let body := req.loopBody plan.mode phase.kind
    forM phase.loops fun nest => emitLoop nest body
  if plan.mode = .zeroFill then
    emit .wmb
  emit .finish

end Builder

/-- Builds the program of a plan step by step, into a buffer. A failed
build leaves the end of a program at the start of the buffer. -/
def Plan.buildStepwise (plan : Plan) (req : Request) (buffer : ProgramBuffer) :
    Except LayoutError Microprogram × List UInt8 :=
  match Builder.emitProgram plan req (.new buffer.bytes) with
  | (.ok (), builder) =>
    let bytes := builder.bytes.getD []
    (.ok {
        code := bytes.take builder.offset
        busAddress := buffer.busAddress
        nonSecure := req.security = .nonSecure
        plan },
      bytes)
  | (.error e, builder) =>
    let bytes := builder.bytes.getD []
    (.error e, (Instruction.finish.encodeInto? bytes).getD bytes)

/-- Counts the bytes of a plan's program step by step. -/
def Plan.sizeStepwise (plan : Plan) (req : Request) : Except LayoutError Nat :=
  match Builder.emitProgram plan req .measuring with
  | (.ok (), builder) => .ok builder.offset
  | (.error e, _) => .error e

namespace Builder

-- ================================================================ steps

variable {b b' : Builder} {body : List Instruction}

theorem run_bind {α β : Type} (x : Building α) (f : α → Building β)
    (b : Builder) :
    (x >>= f) b =
      match x b with
      | (.ok a, b') => f a b'
      | (.error e, b') => (.error e, b') := by
  show (match x b with | (a, b') => ExceptT.bindCont f a b') = _
  cases x b with
  | mk a b' => cases a <;> rfl

theorem emit_run (i : Instruction) (b : Builder) :
    emit i b =
      if b.capacity < b.offset + i.length then
        (.error (.build (.bufferOverflow (b.offset + i.length) b.capacity)), b)
      else
        (.ok (), { b with
          bytes := b.bytes.map (overwrite · b.offset i.encode)
          offset := b.offset + i.length }) := by
  unfold emit
  rw [run_bind]
  show (if _ then _ else _ : Building Unit) b = _
  split <;> rfl

/-- Appended instructions move the builder on by their lengths. -/
theorem offset_of_forM_emit {program : List Instruction}
    (h : forM program emit b = (.ok (), b')) :
    b'.offset = b.offset + totalLength program := by
  induction program generalizing b with
  | nil =>
      cases h
      rfl
  | cons i program ih =>
      rw [List.forM_cons, run_bind, emit_run] at h
      split at h
      next _ _ stepped =>
        split at stepped
        · cases stepped
        · cases stepped
          rw [ih h, Instruction.totalLength_cons, Nat.add_assoc]
      next => cases h

-- ================================================================ loops

/-- Opening a loop appends its first instruction. -/
theorem loopBegin_run (counter : LoopCounter) (iterations : UInt16)
    (b : Builder) :
    loopBegin counter iterations b =
      match emit (.lp counter iterations) b with
      | (.ok (), b') => (.ok ⟨counter, b'.offset⟩, b')
      | (.error e, b') => (.error e, b') := by
  unfold loopBegin
  rw [run_bind]
  rcases emit (.lp counter iterations) b with ⟨opened | opened, b'⟩ <;> rfl

theorem loopEnd_run {frame : LoopFrame} {length : Nat}
    (place : b.offset = frame.start + length) (short : length < UInt8.size) :
    loopEnd frame b =
      emit (.lpend frame.counter .always (UInt8.ofNat length)) b := by
  have distance : b.offset - frame.start = length := by omega
  unfold loopEnd
  rw [run_bind]
  show (if UInt8.size ≤ b.offset - frame.start then _ else _ : Building Unit)
    b = _
  rw [distance, if_neg (Nat.not_le.2 short)]

/-- A loop that is opened, filled and closed is the loop around its
body. -/
theorem loop_eq (counter : LoopCounter) (iterations : UInt16)
    (short : totalLength body < UInt8.size) :
    (do
      let frame ← loopBegin counter iterations
      forM body emit
      loopEnd frame) = forM (loopAround counter iterations body) emit := by
  funext b
  rw [loopAround, List.cons_append, List.forM_cons, List.forM_append, run_bind,
    run_bind, loopBegin_run]
  rcases emit (.lp counter iterations) b with ⟨opened | opened, b₁⟩
  · rfl
  · simp only [run_bind]
    cases filled : forM body emit b₁ with
    | mk outcome b₂ =>
        cases outcome with
        | error e => rfl
        | ok =>
            show loopEnd ⟨counter, b₁.offset⟩ b₂ = forM [_] emit b₂
            rw [loopEnd_run (offset_of_forM_emit filled) short, List.forM_cons,
              run_bind]
            rcases emit _ b₂ with ⟨closed | closed, b₃⟩ <;> rfl

theorem emitLoop_eq (nest : LoopNest) (short : totalLength body ≤ 7) :
    emitLoop nest body = forM (nest.instructions body) emit := by
  have inner : (do
      let frame ← loopBegin .zero nest.inner
      forM body emit
      loopEnd frame) = forM (loopAround .zero nest.inner body) emit :=
    loop_eq .zero nest.inner (Nat.lt_of_le_of_lt short (by decide))
  unfold emitLoop LoopNest.instructions
  cases nest.outer with
  | none =>
      rw [← inner]
      simp only [pure_bind, bind_pure_unit]
  | some iterations =>
      have outer : (do
          let frame ← loopBegin .one iterations
          forM (loopAround .zero nest.inner body) emit
          loopEnd frame) =
          forM (loopAround .one iterations (loopAround .zero nest.inner body))
            emit :=
        loop_eq .one iterations (by
          rw [totalLength_loopAround]
          exact Nat.lt_of_le_of_lt (Nat.add_le_add_right short 4) (by decide))
      rw [← outer, ← inner]
      simp only [bind_assoc, map_eq_pure_bind, pure_bind]

theorem emitLoops_eq (loops : List LoopNest) (short : totalLength body ≤ 7) :
    (forM loops fun nest => emitLoop nest body) =
      forM (loops.flatMap (·.instructions body)) emit := by
  induction loops with
  | nil => rfl
  | cons nest loops ih =>
      rw [List.forM_cons, emitLoop_eq nest short, ih, List.flatMap_cons,
        List.forM_append]

theorem emitPhases_eq (req : Request) (mode : Mode) (phases : List Phase) :
    (forM phases fun phase => do
      emit (.mov .channelControl phase.control.word)
      forM phase.loops fun nest =>
        emitLoop nest (req.loopBody mode phase.kind)) =
      forM (phases.flatMap fun phase => phase.instructions req mode) emit := by
  induction phases with
  | nil => rfl
  | cons phase phases ih =>
      rw [List.forM_cons, ih, List.flatMap_cons, List.forM_append,
        Phase.instructions, List.forM_cons,
        emitLoops_eq phase.loops (totalLength_loopBody_le req mode phase.kind)]

/-- Step by step, the program of a plan is the list of its
instructions. -/
theorem emitProgram_eq (plan : Plan) (req : Request) :
    emitProgram plan req = forM (plan.instructions req) emit := by
  obtain ⟨mode, phases, residue⟩ := plan
  unfold emitProgram Plan.instructions Request.prologue Mode.epilogue
  simp only [emitPhases_eq, List.forM_append]
  cases mode with
  | zeroFill => simp [bind_assoc]
  | copy =>
      cases req.direction.hasPeriph with
      | false => simp [bind_assoc]
      | true => simp [bind_assoc]

-- ========================================================== both modes

/-- A builder that has written a draft. -/
def ofDraft (capacity : Nat) (draft : Draft) : Builder :=
  ⟨some draft.bytes, capacity, draft.offset⟩

/-- Overwriting behind what was written is writing on. -/
theorem overwrite_draft {draft : Draft}
    (h : draft.written.length = draft.offset) (i : Instruction) :
    overwrite draft.bytes draft.offset i.encode = (draft.emit i).bytes := by
  have written : draft.written.reverse.length = draft.offset :=
    List.length_reverse.trans h
  rw [overwrite, Draft.bytes, ← written, List.take_left, ← List.drop_drop,
    List.drop_left, Instruction.length_encode, Draft.emit, Draft.bytes,
    List.reverse_append, List.reverse_reverse]

/-- With a buffer, appending a list lays it out. -/
theorem forM_emit_ofDraft (capacity : Nat) (program : List Instruction)
    {draft : Draft} (h : draft.written.length = draft.offset) :
    forM program emit (ofDraft capacity draft) =
      ((match (draft.emitAll capacity program).2 with
        | none => .ok ()
        | some need => .error (.build (.bufferOverflow need capacity))),
        ofDraft capacity (draft.emitAll capacity program).1) := by
  induction program generalizing draft with
  | nil => rfl
  | cons i program ih =>
      rw [List.forM_cons, run_bind, Draft.emitAll]
      by_cases exceeds : capacity < draft.offset + i.length
      · have refused : emit i (ofDraft capacity draft) =
            (.error
              (.build (.bufferOverflow (draft.offset + i.length) capacity)),
              ofDraft capacity draft) :=
          (emit_run i _).trans (if_pos exceeds)
        rw [refused, if_pos exceeds]
      · have accepted : emit i (ofDraft capacity draft) =
            (.ok (), ofDraft capacity (draft.emit i)) := by
          refine (emit_run i _).trans ((if_neg exceeds).trans ?_)
          simp only [ofDraft, Option.map_some, overwrite_draft h]
          rfl
        have next : (draft.emit i).written.length = (draft.emit i).offset := by
          simp only [Draft.emit, List.length_append, List.length_reverse,
            Instruction.length_encode, h, Nat.add_comm]
        rw [accepted, if_neg exceeds]
        exact ih next

/-- Without a buffer, it counts the bytes of the list. -/
theorem forM_emit_counting {capacity offset : Nat} {program : List Instruction}
    (room : offset + totalLength program ≤ capacity) :
    forM program emit ⟨none, capacity, offset⟩ =
      (.ok (), ⟨none, capacity, offset + totalLength program⟩) := by
  induction program generalizing offset with
  | nil => rfl
  | cons i program ih =>
      rw [Instruction.totalLength_cons, ← Nat.add_assoc] at room ⊢
      have fits : ¬ capacity < offset + i.length := by omega
      have counted : emit i ⟨none, capacity, offset⟩ =
          (.ok (), ⟨none, capacity, offset + i.length⟩) :=
        (emit_run i _).trans (if_neg fits)
      rw [List.forM_cons, run_bind, counted]
      exact ih room

end Builder

-- ============================================================= agreement

namespace Plan

variable {plan : Plan} {req : Request}

theorem buildStepwise_eq (plan : Plan) (req : Request) (buffer : ProgramBuffer) :
    plan.buildStepwise req buffer =
      ((plan.build req buffer).result.mapError .build,
        (plan.build req buffer).buffer) := by
  have start : Builder.new buffer.bytes =
      .ofDraft buffer.capacity (.start buffer.bytes) := rfl
  have laid := Draft.emitAll_eq buffer.capacity (.start buffer.bytes)
    (plan.instructions req)
  rw [buildStepwise, Builder.emitProgram_eq, start,
    Builder.forM_emit_ofDraft _ _ rfl, build]
  cases all : Draft.emitAll buffer.capacity (.start buffer.bytes)
    (plan.instructions req) with
  | mk draft need =>
      rw [all] at laid
      have offset : draft.written.reverse.length = draft.offset := by
        rw [(Prod.mk.inj laid).1]
        simp [Draft.start]
      cases need with
      | some need => rfl
      | none =>
          simp only [Builder.ofDraft, Option.getD_some, Draft.bytes, ← offset,
            List.take_left]
          rfl

/-- A nest adds at most eight bytes to its body. -/
theorem totalLength_nest_le (nest : LoopNest) (body : List Instruction) :
    totalLength (nest.instructions body) ≤ totalLength body + 8 := by
  unfold LoopNest.instructions
  cases nest.outer <;> simp only [totalLength_loopAround] <;> omega

theorem totalLength_phase_le (phase : Phase) (req : Request) (mode : Mode) :
    totalLength (phase.instructions req mode) ≤
      6 + phase.loops.length * 15 := by
  have short := totalLength_loopBody_le req mode phase.kind
  have nests : totalLength
      (phase.loops.flatMap (·.instructions (req.loopBody mode phase.kind))) ≤
      phase.loops.length * 15 := by
    induction phase.loops with
    | nil => exact Nat.le_refl 0
    | cons nest loops ih =>
        have first := totalLength_nest_le nest (req.loopBody mode phase.kind)
        rw [List.flatMap_cons, Instruction.totalLength_append, List.length_cons,
          Nat.add_mul]
        omega
  rw [Phase.totalLength_instructions]
  omega

/-- A phase whose rounds are counted by a word has few bytes. -/
theorem totalLength_optional_le {phase? : Option Phase} (req : Request)
    (mode : Mode)
    (h : ∀ phase ∈ phase?, ∃ n : UInt32, phase.loops = splitLoops n.toNat) :
    totalLength (phase?.toList.flatMap (·.instructions req mode)) ≤
      6 + 65538 * 15 := by
  cases phase? with
  | none => exact Nat.zero_le _
  | some phase =>
      obtain ⟨n, loops⟩ := h phase rfl
      have bytes := totalLength_phase_le phase req mode
      have nests := length_splitLoops_le n.toNat
      have word : n.toNat < 2 ^ 32 := n.toNat_lt
      unfold loopMax at nests
      rw [loops] at bytes
      rw [Option.toList_some, List.flatMap_cons, List.flatMap_nil,
        List.append_nil]
      omega

/-- A word can count the bytes of the program of a plan. -/
theorem totalLength_instructions_lt {cap : Capability} {mode : Mode}
    (h : req.plan cap mode = .ok plan) :
    totalLength (plan.instructions req) < UInt32.size := by
  have burst : totalLength
      ((req.burstPhase? mode).toList.flatMap (·.instructions req mode)) ≤
      6 + 65538 * 15 := by
    refine totalLength_optional_le req mode fun phase mem => ⟨req.bursts, ?_⟩
    unfold Request.burstPhase? at mem
    split at mem <;> cases mem
    rfl
  have single : totalLength
      ((req.singlePhase? mode).toList.flatMap (·.instructions req mode)) ≤
      6 + 65538 * 15 := by
    refine totalLength_optional_le req mode fun phase mem => ⟨req.singles, ?_⟩
    unfold Request.singlePhase? at mem
    split at mem <;> cases mem
    rfl
  have before : totalLength (req.prologue mode) ≤ 14 := by
    unfold Request.prologue
    cases mode <;> cases req.direction.hasPeriph <;> simp [Instruction.length]
  have after : totalLength mode.epilogue ≤ 2 := by cases mode <;> decide
  unfold Request.plan at h
  cases legal : req.validate cap mode with
  | error e =>
      rw [legal] at h
      cases h
  | ok =>
      rw [legal] at h
      obtain rfl := Except.ok.inj h
      simp only [instructions, List.flatMap_append,
        Instruction.totalLength_append]
      have word : UInt32.size = 2 ^ 32 := rfl
      omega

/-- Counting step by step is adding up the lengths. -/
theorem sizeStepwise_eq {cap : Capability} {mode : Mode}
    (h : req.plan cap mode = .ok plan) :
    plan.sizeStepwise req = .ok (totalLength (plan.instructions req)) := by
  have room : totalLength (plan.instructions req) < UInt64.size :=
    Nat.lt_trans (totalLength_instructions_lt h) (by decide)
  rw [sizeStepwise, Builder.emitProgram_eq, Builder.measuring,
    Builder.forM_emit_counting (by omega)]
  exact congrArg Except.ok (Nat.zero_add _)

end Plan

end DmaController
