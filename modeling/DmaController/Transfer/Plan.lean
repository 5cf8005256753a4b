/-
A transfer broken down into what the hardware can express. A plan is at
most two phases, bursts and then single beats; each has the value of the
channel control register it runs under and the loop nests that repeat
its body often enough.

`validate` says which requests have a plan, and reports the first reason
why one has none. Everything behind it is total: a request that passes
is planned without a further check.
-/
import DmaController.Log
import DmaController.Register.ChannelControl
import DmaController.Text.Hex
import DmaController.Transfer.LoopNest
import DmaController.Transfer.Request

namespace DmaController

-- ============================================================== reasons

/-- One side of a transfer. -/
inductive Side where
  | source
  | destination
  deriving DecidableEq

def Side.name : Side → String
  | .source => "Source"
  | .destination => "Destination"

/-- Why a request has no plan. -/
inductive PlanError where
  | zeroSize
  | burstLength (length : UInt8)
  | burstSize (size max : UInt8)
  | singleBurstSize (single size : UInt8)
  | unaligned (side : Side) (address align : UInt32)
  | addressOverflow (side : Side) (address size : UInt32)
  | unknownPeriph (periph max : UInt8)
  deriving DecidableEq

def PlanError.message : PlanError → String
  | .zeroSize => "Transfer size is zero"
  | .burstLength length => s!"Burst length {length} is not in [1, {maxBurstLength}]"
  | .burstSize size max => s!"Burst size 2^{size} exceeds the 2^{max}-byte data bus"
  | .singleBurstSize single size =>
    s!"Single burst size 2^{single} exceeds burst size 2^{size}"
  | .unaligned side address align =>
    s!"{side.name} address {Text.hex address.toNat} is not {align}-byte aligned"
  | .addressOverflow side address size =>
    s!"{side.name} range {Text.hex address.toNat}+{Text.hex size.toNat} overflows the 32-bit bus"
  | .unknownPeriph periph max => s!"Peripheral {periph} is not in [0, {max}]"

-- ================================================================ plans

/-- What a program does with each unit: move it, or write zeros and
leave the source alone. -/
inductive Mode where
  | copy
  | zeroFill
  deriving DecidableEq

def Mode.name : Mode → String
  | .copy => "Copy"
  | .zeroFill => "ZeroFill"

/-- Whether a phase moves bursts or single beats. -/
inductive PhaseKind where
  | burst
  | single
  deriving DecidableEq

/-- A stretch of a transfer that runs under one channel control. -/
structure Phase where
  kind : PhaseKind
  control : Register.ChannelControl
  /-- The bytes one round of the body moves. -/
  unit : UInt32
  loops : List LoopNest
  deriving DecidableEq

/-- The bytes a phase moves. -/
def Phase.bytes (phase : Phase) : Nat :=
  phase.loops.foldr (fun nest rest => nest.iterations * phase.unit.toNat + rest) 0

/-- A transfer broken down: bursts first, then single beats, empty
phases left out. -/
structure Plan where
  mode : Mode
  phases : List Phase
  /-- The bytes at the end that are not moved. -/
  residue : UInt32
  deriving DecidableEq

namespace Plan

/-- The phase of one kind, if the plan has it. -/
def phase? (plan : Plan) (kind : PhaseKind) : Option Phase :=
  plan.phases.find? fun phase => phase.kind == kind

/-- The bytes a plan moves. -/
def bytes (plan : Plan) : Nat :=
  plan.phases.foldr (fun phase rest => phase.bytes + rest) 0

end Plan

-- ====================================================== channel control

namespace Request

/-- Whether the source and the destination address advance. -/
def increments (req : Request) : Mode → Bool × Bool
  | .zeroFill => (false, true)
  | .copy =>
    match req.direction with
    | .memoryToMemory => (true, true)
    | .memoryToPeriph => (true, false)
    | .periphToMemory => (false, true)

/-- The cache attributes of the source and the destination; a peripheral
is never cached. -/
def cacheAttributes (req : Request) : Nat × Nat :=
  let memory :=
    if req.cache then Register.ChannelControl.writeBack else Register.ChannelControl.bufferable
  match req.direction with
  | .memoryToMemory => (memory, memory)
  | .memoryToPeriph => (memory, Register.ChannelControl.bufferable)
  | .periphToMemory => (Register.ChannelControl.bufferable, memory)

/-- The protection attributes of both sides. -/
def protection (req : Request) : Nat :=
  match req.security with
  | .secure => Register.ChannelControl.privileged
  | .nonSecure => Register.ChannelControl.privileged ||| Register.ChannelControl.nonSecure

open Register.ChannelControl in
/-- The channel control for bursts of `burstLength` beats of
`2 ^ burstSize` bytes. A length is stored minus one. -/
def control (req : Request) (mode : Mode) (burstSize burstLength : UInt8) :
    Register.ChannelControl :=
  let word : UInt32 := 0
  let word := sourceIncrement.setFlag (req.increments mode).1 word
  let word := sourceBurstSize.set burstSize.toNat word
  let word := sourceBurstLength.set (burstLength - 1).toNat word
  let word := sourceProtection.set req.protection word
  let word := sourceCache.set req.cacheAttributes.1 word
  let word := destinationIncrement.setFlag (req.increments mode).2 word
  let word := destinationBurstSize.set burstSize.toNat word
  let word := destinationBurstLength.set (burstLength - 1).toNat word
  let word := destinationProtection.set req.protection word
  let word := destinationCache.set req.cacheAttributes.2 word
  ⟨endianSwap.set req.swap.code word⟩

-- ============================================================= legality

/-- One side's range starts at a multiple of `align` and ends within the
32-bit bus. -/
def validateSide (side : Side) (address size align : UInt32) : Except PlanError Unit :=
  if address &&& (align - 1) != 0 then
    .error (.unaligned side address align)
  else if UInt32.size < address.toNat + size.toNat then
    .error (.addressOverflow side address size)
  else
    .ok ()

/-- The first reason why a request has no plan. -/
def validate (req : Request) (cap : Capability) (mode : Mode) : Except PlanError Unit :=
  let align := (1 : UInt32) <<< req.burstSize.toUInt32
  if req.size = 0 then
    .error .zeroSize
  else if req.burstLength < 1 ∨ maxBurstLength < req.burstLength then
    .error (.burstLength req.burstLength)
  else if cap.maxBurstSize < req.burstSize then
    .error (.burstSize req.burstSize cap.maxBurstSize)
  else if req.burstSize < req.singleBurstSize then
    .error (.singleBurstSize req.singleBurstSize req.burstSize)
  else do
    if mode = .copy then
      validateSide .source req.source req.size align
    validateSide .destination req.destination req.size align
    if mode = .copy ∧ req.direction.hasPeriph ∧ cap.numPeriph ≤ req.periph then
      throw (.unknownPeriph req.periph (if cap.numPeriph = 0 then 0 else cap.numPeriph - 1))

-- ============================================================= planning

/-- The burst phase; none if the transfer is smaller than one burst. -/
def burstPhase? (req : Request) (mode : Mode) : Option Phase :=
  if req.bursts = 0 then none
  else some {
    kind := .burst
    control := req.control mode req.burstSize req.burstLength
    unit := req.burstBytes
    loops := splitLoops req.bursts.toNat }

/-- The phase of single beats; none if nothing as large as one beat is
left behind the bursts. -/
def singlePhase? (req : Request) (mode : Mode) : Option Phase :=
  if req.singles = 0 then none
  else some {
    kind := .single
    control := req.control mode req.singleBurstSize 1
    unit := req.singleBytes
    loops := splitLoops req.singles.toNat }

/-- The plan of a request that has one. -/
def plan (req : Request) (cap : Capability) (mode : Mode) : Except PlanError Plan := do
  req.validate cap mode
  return {
    mode
    phases := (req.burstPhase? mode).toList ++ (req.singlePhase? mode).toList
    residue := req.residue }

/-- What planning says: a warning about bytes that stay behind, and the
outcome in one line. Nothing is said about a request without a plan. -/
def planRemarks (req : Request) (cap : Capability) (mode : Mode) : List Log.Line :=
  match req.validate cap mode with
  | .error _ => []
  | .ok () =>
    let source := Text.hex req.source.toNat
    let destination := Text.hex req.destination.toNat
    let size := Text.hex req.size.toNat
    let left :=
      if req.residue = 0 then []
      else [.warn (s!"{req.residue} trailing bytes of {destination}+{size} are smaller than a " ++
        s!"{req.singleBytes}-byte beat and will not be transferred")]
    left ++ [.debug (s!"{mode.name} {source} -> {destination}, {size} bytes: {req.bursts} bursts, " ++
      s!"{req.singles} singles, residue {req.residue}")]

end Request

end DmaController
