/-
The instructions that carry out a plan.

A program loads its addresses, flushes the peripheral if there is one,
and then for each phase loads the channel control and runs the phase's
nests. The inner loop of a nest is on counter zero and the outer one on
counter one; each loop end carries the distance back to the first
instruction of its body. The program of a zero fill ends with a barrier,
because its body has none.
-/
import DmaController.Instruction.Basic
import DmaController.Transfer.Plan

namespace DmaController

/-- What a phase waits for. -/
def PhaseKind.awaited : PhaseKind → AwaitedRequest
  | .burst => .burst
  | .single => .single

/-- What kind of request a phase serves. -/
def PhaseKind.request : PhaseKind → RequestKind
  | .burst => .burst
  | .single => .single

/-- The instructions that move one unit. -/
def Request.loopBody (req : Request) (mode : Mode) (kind : PhaseKind) : List Instruction :=
  match mode, req.direction with
  | .zeroFill, _ => [.stz]
  | .copy, .memoryToMemory => [.ld .always, .rmb, .st .always, .wmb]
  | .copy, .memoryToPeriph =>
    [.wfp kind.awaited req.periph, .ld .always, .rmb, .stp kind.request req.periph, .wmb]
  | .copy, .periphToMemory =>
    [.wfp kind.awaited req.periph, .ldp kind.request req.periph, .rmb, .st .always, .wmb]

/-- A body between the two ends of a loop. -/
def loopAround (counter : LoopCounter) (iterations : UInt16) (body : List Instruction) :
    List Instruction :=
  .lp counter iterations :: body ++
    [.lpend counter .always (UInt8.ofNat (Instruction.totalLength body))]

/-- A nest around a body. -/
def LoopNest.instructions (nest : LoopNest) (body : List Instruction) : List Instruction :=
  let inner := loopAround .zero nest.inner body
  match nest.outer with
  | none => inner
  | some iterations => loopAround .one iterations inner

/-- The instructions of one phase. -/
def Phase.instructions (phase : Phase) (req : Request) (mode : Mode) : List Instruction :=
  .mov .channelControl phase.control.word ::
    phase.loops.flatMap fun nest => nest.instructions (req.loopBody mode phase.kind)

/-- The instructions before the first phase. -/
def Request.prologue (req : Request) (mode : Mode) : List Instruction :=
  (if mode = .copy then [.mov .sourceAddress req.source] else []) ++
    [.mov .destinationAddress req.destination] ++
    (if mode = .copy ∧ req.direction.hasPeriph then [.flushp req.periph] else [])

/-- The instructions behind the last phase. -/
def Mode.epilogue : Mode → List Instruction
  | .copy => [.finish]
  | .zeroFill => [.wmb, .finish]

/-- The program of a plan. -/
def Plan.instructions (plan : Plan) (req : Request) : List Instruction :=
  req.prologue plan.mode ++
    plan.phases.flatMap (fun phase => phase.instructions req plan.mode) ++
    plan.mode.epilogue

end DmaController
