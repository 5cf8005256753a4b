/-
Programs in memory that their caller owns. Building plans a request and
lays the instructions into the caller's buffer one by one, as long as
there is room.

A build that runs out of room leaves a buffer that is safe to start by
mistake: its first byte then is the end of a program. A request without
a plan leaves the buffer alone. `requiredSize` asks the same questions
without a buffer.
-/
import DmaController.Instruction.Encoding
import DmaController.Instruction.Text
import DmaController.Microprogram.Instructions

namespace DmaController

/-- Why no program was built. -/
inductive BuildError where
  | plan (cause : PlanError)
  /-- The buffer holds `capacity` bytes, and the first instruction that
  found no room would have ended at `need`. -/
  | bufferOverflow (need capacity : Nat)
  deriving DecidableEq

def BuildError.message : BuildError → String
  | .plan _ => "Invalid transfer"
  | .bufferOverflow _ capacity => s!"Program needs more than {capacity} bytes"

/-- Memory that receives a program, and where the controller finds it. -/
structure ProgramBuffer where
  bytes : List UInt8
  busAddress : UInt32
  deriving DecidableEq

def ProgramBuffer.capacity (buffer : ProgramBuffer) : Nat :=
  buffer.bytes.length

/-- A complete program, ready to be started on a channel. -/
structure Microprogram where
  code : List UInt8
  busAddress : UInt32
  nonSecure : Bool
  plan : Plan
  deriving DecidableEq

namespace Microprogram

def length (program : Microprogram) : Nat :=
  program.code.length

/-- The bytes at the end of the transfer that the program does not
move. -/
def residue (program : Microprogram) : UInt32 :=
  program.plan.residue

end Microprogram

-- ==================================================== laying out a program

/-- A buffer that is being filled from its start. -/
structure Draft where
  /-- The bytes written so far, the last one first. -/
  written : List UInt8
  /-- How many those are. -/
  offset : Nat
  /-- The old bytes behind them. -/
  rest : List UInt8

namespace Draft

/-- A buffer before anything is written into it. -/
def start (bytes : List UInt8) : Draft :=
  ⟨[], 0, bytes⟩

/-- The whole buffer as it stands. -/
def bytes (draft : Draft) : List UInt8 :=
  draft.written.reverse ++ draft.rest

/-- Writes an instruction behind the ones before it. -/
def emit (draft : Draft) (i : Instruction) : Draft :=
  ⟨i.encode.reverse ++ draft.written, draft.offset + i.length, draft.rest.drop i.length⟩

/-- Writes instructions until one would end beyond `capacity`; then says
where that would have been. -/
def emitAll (capacity : Nat) (draft : Draft) : List Instruction → Draft × Option Nat
  | [] => (draft, none)
  | i :: program =>
    if capacity < draft.offset + i.length then
      (draft, some (draft.offset + i.length))
    else
      emitAll capacity (draft.emit i) program

end Draft

/-- The instructions that end within `capacity`, from an offset on: the
ones `emitAll` writes. -/
def fitting (capacity offset : Nat) : List Instruction → List Instruction
  | [] => []
  | i :: program =>
    if capacity < offset + i.length then []
    else i :: fitting capacity (offset + i.length) program

-- ============================================================= building

/-- The outcome of a build and the buffer it leaves behind. -/
structure Build where
  result : Except BuildError Microprogram
  buffer : List UInt8

namespace Plan

/-- Lays a plan's program into a buffer. -/
def build (plan : Plan) (req : Request) (buffer : ProgramBuffer) : Build :=
  let capacity := buffer.capacity
  match Draft.emitAll capacity (.start buffer.bytes) (plan.instructions req) with
  | (draft, none) =>
    { result := .ok {
        code := draft.written.reverse
        busAddress := buffer.busAddress
        nonSecure := req.security = .nonSecure
        plan }
      buffer := draft.bytes }
  | (draft, some need) =>
    { result := .error (.bufferOverflow need capacity)
      buffer := (Instruction.finish.encodeInto? draft.bytes).getD draft.bytes }

/-- What laying out a program says: each instruction as it is written,
and the outcome. -/
def buildRemarks (plan : Plan) (req : Request) (buffer : ProgramBuffer) : List Log.Line :=
  let program := plan.instructions req
  let capacity := buffer.capacity
  let address := Text.hex buffer.busAddress.toNat
  let emitted := (fitting capacity 0 program).map Instruction.emission
  match (plan.build req buffer).result with
  | .ok program =>
    emitted ++ [.debug s!"Built {plan.mode.name} program of {program.length} bytes at {address}"]
  | .error e =>
    emitted ++ (if 0 < capacity then [Instruction.finish.emission] else []) ++
      [.error s!"Cannot build program at {address}: {e.message}"]

end Plan

namespace Request

/-- Plans a request in one mode and builds its program. -/
def buildIn (req : Request) (mode : Mode) (cap : Capability) (buffer : ProgramBuffer) : Build :=
  match req.plan cap mode with
  | .ok plan => plan.build req buffer
  | .error e => ⟨.error (.plan e), buffer.bytes⟩

/-- The size of a request's program in one mode. -/
def requiredSizeIn (req : Request) (mode : Mode) (cap : Capability) : Except BuildError Nat :=
  match req.plan cap mode with
  | .ok plan => .ok (Instruction.totalLength (plan.instructions req))
  | .error e => .error (.plan e)

/-- What building says. -/
def buildRemarksIn (req : Request) (mode : Mode) (cap : Capability) (buffer : ProgramBuffer) :
    List Log.Line :=
  req.planRemarks cap mode ++
    match req.plan cap mode with
    | .ok plan => plan.buildRemarks req buffer
    | .error _ => []

/-- Builds the program of a transfer. -/
def build (req : Request) (cap : Capability) (buffer : ProgramBuffer) : Build :=
  req.buildIn .copy cap buffer

/-- The bytes the program of a transfer takes. -/
def requiredSize (req : Request) (cap : Capability) : Except BuildError Nat :=
  req.requiredSizeIn .copy cap

end Request

namespace Capability

/-- Builds a program that clears `size` bytes from `destination` on, to
run in the given security state. -/
def buildZeroFill (cap : Capability) (destination size : UInt32) (security : Security)
    (buffer : ProgramBuffer) : Build :=
  (Request.zeroFill cap destination size security).buildIn .zeroFill cap buffer

/-- The bytes the program of a zero fill takes; they do not depend on
the security state. -/
def zeroFillSize (cap : Capability) (destination size : UInt32) : Except BuildError Nat :=
  (Request.zeroFill cap destination size .secure).requiredSizeIn .zeroFill cap

end Capability

end DmaController
