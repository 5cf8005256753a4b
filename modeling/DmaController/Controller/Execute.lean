/-
What a channel thread does in one tick, and in a slice of ticks.

An executing channel fetches the instruction at its program counter,
refuses it if an operand is out of its reach, and otherwise either makes
the one data access the instruction asks for or changes its own state. A
refusal or a failed access is a fault, and the channel stays where it
is. The transitions between states take a tick of their own, and a tick
that cannot move a channel any further ends its slice.
-/
import DmaController.Controller.Channel
import DmaController.Instruction.Encoding

namespace DmaController

-- ===================================================== data accesses

/-- The condition holds for a channel that serves bursts, or does
not. -/
def Condition.holds : Condition → (servesBurst : Bool) → Bool
  | .always, _ => true
  | .single, servesBurst => !servesBurst
  | .burst, servesBurst => servesBurst

/-- The kind is the one the channel serves. -/
def RequestKind.holds : RequestKind → (servesBurst : Bool) → Bool
  | .single, servesBurst => !servesBurst
  | .burst, servesBurst => servesBurst

/-- What an instruction can ask of memory. -/
inductive DataAccess where
  /-- Move a source burst into the buffer. -/
  | load
  /-- Move a destination burst out of the buffer. -/
  | store
  /-- Write a destination burst of zeros. -/
  | clear
  deriving DecidableEq

/-- The data access of an instruction; none if it has none or if its
condition does not hold. -/
def Instruction.dataAccess? (servesBurst : Bool) : Instruction → Option DataAccess
  | .ld condition => if condition.holds servesBurst then some .load else none
  | .ldp kind _ => if kind.holds servesBurst then some .load else none
  | .st condition => if condition.holds servesBurst then some .store else none
  | .stp kind _ => if kind.holds servesBurst then some .store else none
  | .stz => some .clear
  | _ => none

namespace Channel

-- ============================================================= fetching

/-- The instruction at the program counter. Code that ends in the middle
of an instruction cannot be fetched; the other failures lie in the code
itself. -/
def fetch (memory : Memory) (ch : Channel) : Except ChannelFault Instruction :=
  match Instruction.decode (memory.readAvailable ch.pc.toUInt64 Instruction.maxLength) with
  | .ok i => .ok i
  | .error (.truncated ..) => .error .fetchError
  | .error (.unknownOpcode _) => .error .undefInstr
  | .error (.invalidOperand ..) => .error .operandInvalid

/-- Why a channel does not carry out an instruction: a peripheral or an
event that does not exist, secure accesses in a non-secure thread, or an
instruction that only the manager may execute. -/
def refusal? (cap : Capability) (ch : Channel) : Instruction → Option ChannelFault
  | .ldp _ periph | .stp _ periph | .wfp _ periph | .flushp periph =>
    if cap.numPeriph ≤ periph then some .periphError else none
  | .sev event | .wfe event _ =>
    if cap.numEvents ≤ event then some .eventError else none
  | .mov .channelControl value =>
    if ch.nonSecure && !Register.ChannelControl.isNonSecureBoth ⟨value⟩ then some .securityError
    else none
  | .go .. => some .undefInstr
  | _ => none

-- ============================================================ executing

/-- The bit of an event. -/
def eventBit (event : UInt8) : UInt32 :=
  (1 : UInt32) <<< event.toUInt32

/-- The event is pending. -/
def isPending (events : UInt32) (event : UInt8) : Bool :=
  events &&& eventBit event != 0

/-- Carries out an instruction that has no data access, or one whose
condition does not hold. Emulated peripherals always have a request
pending, so a wait for one only notes its kind. -/
def proceed (ch : Channel) (events : UInt32) (i : Instruction) : Channel × UInt32 :=
  match i with
  | .finish => ({ ch with status := .completing }, events)
  | .kill => ({ ch with status := .killing }, events)
  | .mov .sourceAddress value => ({ ch with source := value }.past i, events)
  | .mov .destinationAddress value => ({ ch with destination := value }.past i, events)
  | .mov .channelControl value => ({ ch with control := ⟨value⟩ }.past i, events)
  | .addh .source amount => ({ ch with source := ch.source + amount.toUInt32 }.past i, events)
  | .addh .destination amount =>
    ({ ch with destination := ch.destination + amount.toUInt32 }.past i, events)
  | .lp counter iterations =>
    ((ch.setCounter counter (iterations - 1).toUInt8).past i, events)
  | .lpend counter condition jump =>
    if condition.holds ch.servesBurst ∧ ch.counter counter ≠ 0 then
      let round := ch.setCounter counter (ch.counter counter - 1)
      ({ round with pc := round.pc - jump.toUInt32 }, events)
    else
      (ch.past i, events)
  | .wfp awaited _ => ({ ch with servesBurst := awaited != AwaitedRequest.single }.past i, events)
  | .sev event => (ch.past i, events ||| eventBit event)
  | .wfe event _ =>
    if isPending events event then
      (ch.past i, events &&& ~~~eventBit event)
    else
      ({ ch with status := .waiting event }, events)
  | _ => (ch.past i, events)

/-- Carries out an instruction the channel does not refuse. -/
def perform (cap : Capability) (ch : Channel) (shared : Shared) (i : Instruction) :
    Channel × Shared :=
  match i.dataAccess? ch.servesBurst with
  | some .load =>
    match ch.load cap shared.memory with
    | .ok loaded => (loaded.past i, shared)
    | .error cause => (ch.fault cause, shared)
  | some .store =>
    match ch.storeRefusal? shared.memory with
    | some cause => (ch.fault cause, shared)
    | none =>
      (ch.stored.past i,
        { shared with memory := shared.memory.put ch.destination.toUInt64 ch.storeBlock })
  | some .clear =>
    match ch.clearRefusal? shared.memory with
    | some cause => (ch.fault cause, shared)
    | none =>
      (ch.cleared.past i,
        { shared with
          memory := shared.memory.putTable ch.destination.toUInt64
            ch.control.destinationBurstBytes fun _ => 0 })
  | none =>
    let (moved, events) := ch.proceed shared.events i
    (moved, { shared with events })

/-- Executes the instruction at the program counter. -/
def execute (cap : Capability) (ch : Channel) (shared : Shared) : Channel × Shared :=
  match ch.fetch shared.memory with
  | .error cause => (ch.fault cause, shared)
  | .ok i =>
    match ch.refusal? cap i with
    | some cause => (ch.fault cause, shared)
    | none => ch.perform cap shared i

/-- Why an access of an instruction does not happen. -/
def accessFault? (cap : Capability) (ch : Channel) (memory : Memory) :
    DataAccess → Option ChannelFault
  | .load =>
    match ch.load cap memory with
    | .ok _ => none
    | .error cause => some cause
  | .store => ch.storeRefusal? memory
  | .clear => ch.clearRefusal? memory

/-- Why the instruction at the program counter faults; none if it is
carried out. -/
def executionFault? (cap : Capability) (ch : Channel) (memory : Memory) : Option ChannelFault :=
  match ch.fetch memory with
  | .error cause => some cause
  | .ok i =>
    match ch.refusal? cap i with
    | some cause => some cause
    | none => (i.dataAccess? ch.servesBurst).bind (ch.accessFault? cap memory)

/-- An execution that has a reason to fault does so, and changes nothing
that is shared. -/
theorem execute_of_fault {cap : Capability} {ch : Channel} {shared : Shared} {cause : ChannelFault}
    (h : ch.executionFault? cap shared.memory = some cause) :
    ch.execute cap shared = (ch.fault cause, shared) := by
  unfold executionFault? at h
  unfold execute
  cases fetched : ch.fetch shared.memory with
  | error e => simp_all
  | ok i =>
    simp only [fetched] at h ⊢
    cases refused : ch.refusal? cap i with
    | some e => simp_all
    | none =>
      simp only [refused] at h ⊢
      cases access : i.dataAccess? ch.servesBurst with
      | none => simp [access] at h
      | some kind =>
        simp only [access, Option.bind_some] at h
        cases kind with
        | load =>
          cases loaded : ch.load cap shared.memory <;> simp_all [accessFault?, perform]
        | store => simp_all [accessFault?, perform]
        | clear => simp_all [accessFault?, perform]

-- ============================================================== ticking

/-- A channel after a tick, what it shares, and whether another tick may
move it further. -/
structure Tick where
  channel : Channel
  shared : Shared
  progress : Bool

/-- Advances a channel by one instruction or one change of state. -/
def tick (cap : Capability) (ch : Channel) (shared : Shared) : Tick :=
  match ch.status with
  | .completing | .killing => ⟨{ ch with status := .stopped, mfifo := [] }, shared, false⟩
  | .faultCompleting cause => ⟨{ ch with status := .faulting cause }, shared, false⟩
  | .executing =>
    let (next, shared) := ch.execute cap shared
    ⟨next, shared, true⟩
  | .waiting event =>
    if isPending shared.events event then
      ⟨{ ch with status := .executing, pc := ch.pc + 2 },
        { shared with events := shared.events &&& ~~~eventBit event }, true⟩
    else
      ⟨ch, shared, false⟩
  | .stopped | .faulting _ => ⟨ch, shared, false⟩

/-- Runs a channel for a slice of at most `steps` ticks. -/
def run (cap : Capability) : (steps : Nat) → Channel → Shared → Channel × Shared
  | 0, ch, shared => (ch, shared)
  | steps + 1, ch, shared =>
    let ⟨next, shared, progress⟩ := ch.tick cap shared
    if progress then run cap steps next shared else (next, shared)

end Channel

end DmaController
